import SlimeReceiver.Ota.Calls

/-! # Every run of the relay

A BEGIN that acquires the radio operation releases it once, and the trackers suppressed by a session are
let go when its last target has left.

* **`callEvents`** — the history of a call.
* **`CallLaw`** — what a call has done when it is over; **`CallState`**, what it has done so far.
* **`session_law`** — the law of every run. -/

namespace SlimeReceiver.Ota

open Function (update)

/-! ## Calls -/

/-- One more event in the history of the call a thread makes. -/
def callEvents.note (t : ℕ) (during : List OtaEvent) (e : OtaEvent) : List OtaEvent :=
  if e = .started t then [] else during ++ [e]

/-- What has been reported since the current call of a thread was started. -/
def callEvents (t : ℕ) (trace : List OtaEvent) : List OtaEvent := trace.foldl (callEvents.note t) []

theorem callEvents_append {t : ℕ} {es : List OtaEvent} (trace : List OtaEvent)
    (h : .started t ∉ es) : callEvents t (trace ++ es) = callEvents t trace ++ es := by
  induction es generalizing trace with
  | nil => rw [List.append_nil, List.append_nil]
  | cons e es ih =>
    rw [List.mem_cons, not_or] at h
    rw [← List.singleton_append, ← List.append_assoc, ih _ h.2, ← List.append_assoc]
    refine congrArg (· ++ es) ?_
    rw [callEvents, List.foldl_append]
    exact if_neg fun hstarted => h.1 hstarted.symm

theorem callEvents_started (t : ℕ) (trace : List OtaEvent) :
    callEvents t (trace ++ [OtaEvent.started t]) = [] := by
  rw [callEvents, List.foldl_append]
  exact if_pos rfl

/-- Once the last target has left, the trackers collected later have all been told. -/
def LetGo (t : ℕ) (rest : List Micro) (during : List OtaEvent) : Prop :=
  ∀ before after, during = before ++ OtaEvent.lastLeft t :: after → .unsuppress ∈ rest ∨
    ∃ until_ ids late, after = until_ ++ OtaEvent.unsuppressing t ids :: late ∧
      ∀ id ∈ ids, .sent t id pongFlagOtaUnsuppress ∈ late ∨ .send id pongFlagOtaUnsuppress ∈ rest

/-- A step does what is due or leaves it to the rest of the call. -/
theorem LetGo.append {t : ℕ} {rest rest' : List Micro} {during es : List OtaEvent}
    (h : LetGo t rest during) (hleft : .lastLeft t ∈ es → .unsuppress ∈ rest')
    (hcollect : .unsuppress ∈ rest → .unsuppress ∈ rest' ∨
      ∃ ids, es = [.unsuppressing t ids] ∧ ∀ id ∈ ids, .send id pongFlagOtaUnsuppress ∈ rest')
    (hsend : ∀ id, .send id pongFlagOtaUnsuppress ∈ rest →
      .sent t id pongFlagOtaUnsuppress ∈ es ∨ .send id pongFlagOtaUnsuppress ∈ rest') :
    LetGo t rest' (during ++ es) := by
  intro before after heq
  rcases List.append_eq_append_iff.mp heq with ⟨c, -, hes⟩ | ⟨c, hduring, hafter⟩
  · exact .inl (hleft (hes ▸ List.mem_append_right _ List.mem_cons_self))
  · cases c with
    | nil => exact .inl (hleft (List.nil_append es ▸ hafter ▸ List.mem_cons_self))
    | cons e c =>
      obtain ⟨rfl, rfl⟩ := List.cons.inj hafter
      -- the target had left before the step
      rcases h before c hduring with hdue | ⟨until_, ids, late, rfl, hids⟩
      · rcases hcollect hdue with hdue' | ⟨ids, rfl, hids⟩
        · exact .inl hdue'
        · exact .inr ⟨c, ids, [], rfl, fun id hid => .inr (hids id hid)⟩
      · refine .inr ⟨until_, ids, late ++ es, ?_, fun id hid => ?_⟩
        · exact List.append_assoc _ _ _
        · rcases hids id hid with hsent | hdue
          · exact .inl (List.mem_append_left _ hsent)
          · exact (hsend id hdue).imp (List.mem_append_right _) fun hdue => hdue

/-- What a thread has done of its call, and what is left. -/
structure CallState (t : ℕ) (rest : List Micro) (during : List OtaEvent) : Prop where
  admissible : ∀ micro ∈ rest, micro.Admissible
  once : during.count (.radioAcquired t) + rest.countP Micro.acquires ≤ 1
  balance : during.count (.radioAcquired t) =
    during.count (.radioReleased t) + rest.countP Micro.releases
  letGo : LetGo t rest during

/-- An event that is not of the call of a thread. -/
def Bystander (t : ℕ) (e : OtaEvent) : Prop :=
  e ≠ .started t ∧ e ≠ .radioAcquired t ∧ e ≠ .radioReleased t ∧ e ≠ .lastLeft t

section Steps

variable {t thread : ℕ} {rest : List Micro} {during es : List OtaEvent} {micro : Micro}
  {env : MicroEnvironment} {s : OtaWorld}

theorem CallState.bystander (h : CallState t rest during) (hes : ∀ e ∈ es, Bystander t e) :
    CallState t rest (during ++ es) where
  admissible := h.admissible
  once := by
    rw [List.count_append, List.count_eq_zero.mpr fun hmem => (hes _ hmem).2.1 rfl]
    exact h.once
  balance := by
    rw [List.count_append, List.count_append, List.count_eq_zero.mpr fun hmem => (hes _ hmem).2.1 rfl,
      List.count_eq_zero.mpr fun hmem => (hes _ hmem).2.2.1 rfl]
    exact h.balance
  letGo := h.letGo.append (fun hmem => absurd rfl (hes _ hmem).2.2.2) .inl fun _ => .inr

theorem callState_nil (t : ℕ) : CallState t [] [] :=
  ⟨fun micro hmicro => (by cases hmicro), Nat.zero_le _, rfl, fun before after heq => by simp at heq⟩

/-- A call starts with at most one BEGIN and nothing to be done for others. -/
theorem callState_start (t : ℕ) (call : Call) : CallState t call.start [] := by
  have hplain : ∀ micro : Micro, micro.Admissible → micro.releases = false → CallState t [micro] [] := by
    intro micro hadmissible hreleases
    refine ⟨List.forall_mem_singleton.mpr hadmissible, ?_, ?_, fun before after heq => by simp at heq⟩
    · rw [List.count_nil, Nat.zero_add, List.countP_singleton]
      split <;> omega
    · rw [List.countP_singleton, hreleases]
      rfl
  have hnil := callState_nil t
  have habort : ∀ id, CallState t (abortMicros id) [] := by
    intro id
    unfold abortMicros
    split
    case isTrue => exact hplain _ trivial rfl
    case isFalse =>
      split
      case isTrue => exact hplain _ trivial rfl
      case isFalse => exact hnil
  cases call with
  | hid report =>
    simp only [Call.start, hidMicros]
    split
    case isTrue => exact hnil
    split
    case isTrue =>
      split
      case isTrue => exact hnil
      case isFalse => exact hplain _ trivial rfl
    split
    case isTrue =>
      split
      case isTrue => exact hnil
      case isFalse hid => exact hplain _ (not_le.mp hid) rfl
    split
    case isTrue => exact hplain _ trivial rfl
    split
    case isTrue => exact hplain _ trivial rfl
    split
    case isTrue => exact hplain _ trivial rfl
    split
    case isTrue => exact habort _
    case isFalse => exact hnil
  | consoleAbort id => exact habort id
  | consoleInfo id =>
    simp only [Call.start]
    split
    case isTrue => exact hplain _ trivial rfl
    case isFalse => exact hnil
  | forget id =>
    simp only [Call.start]
    split
    case isTrue => exact hnil
    case isFalse => exact hplain _ trivial rfl
  | status packet =>
    simp only [Call.start]
    split
    case isTrue => exact hnil
    case isFalse => exact hplain _ trivial rfl

variable (s env) in
/-- An entry of the call. -/
theorem CallState.entry (h : CallState t (micro :: rest) during) :
    CallState t ((s.runMicro t env micro).2.1 ++ rest) (during ++ (s.runMicro t env micro).2.2) := by
  obtain ⟨honce, hbalance⟩ := runMicro_radio s t env micro
  refine ⟨fun m hm => ?_, ?_, ?_, h.letGo.append (fun hleft => ?_) (fun hdue => ?_) fun id hdue => ?_⟩
  · exact (List.mem_append.mp hm).elim
      (runMicro_admissible (h.admissible _ List.mem_cons_self) m)
      fun hrest => h.admissible m (List.mem_cons_of_mem _ hrest)
  · have hall := h.once
    rw [← List.singleton_append, List.countP_append] at hall
    rw [List.count_append, List.countP_append]
    omega
  · have hall := h.balance
    rw [← List.singleton_append, List.countP_append] at hall
    rw [List.count_append, List.count_append, List.countP_append]
    omega
  · cases runMicro_events hleft with
    | lastLeft _ hdue _ => exact List.mem_append_left _ hdue
  · rcases List.mem_cons.mp hdue with rfl | hrest
    · exact .inr ⟨_, rfl, fun id hid => List.mem_append_left _ (List.mem_map_of_mem hid)⟩
    · exact .inl (List.mem_append_right _ hrest)
  · rcases List.mem_cons.mp hdue with rfl | hrest
    · exact .inl (List.mem_singleton_self _)
    · exact .inr (List.mem_append_right _ hrest)

/-- The entries of other threads are not of the call. -/
theorem runMicro_bystander (hother : t ≠ thread) :
    ∀ e ∈ (s.runMicro thread env micro).2.2, Bystander t e := by
  intro e he
  have hne := Ne.symm hother
  cases runMicro_events he <;> simp [Bystander, hne]

theorem runMicro_not_started : .started t ∉ (s.runMicro thread env micro).2.2 := by
  intro hmem
  cases runMicro_events hmem

end Steps

/-! ## Runs -/

/-- What a call has done when it is over. -/
def CallLaw (earlier : List OtaEvent) : OtaEvent → Prop
  | .finished t =>
    (callEvents t earlier).count (.radioAcquired t) ≤ 1 ∧
      (callEvents t earlier).count (.radioReleased t) = (callEvents t earlier).count (.radioAcquired t) ∧
      ∀ before after, callEvents t earlier = before ++ OtaEvent.lastLeft t :: after →
        ∃ until_ ids late, after = until_ ++ OtaEvent.unsuppressing t ids :: late ∧
          ∀ id ∈ ids, .sent t id pongFlagOtaUnsuppress ∈ late
  | _ => True

/-- What a step does to a session and to the calls. -/
structure SessionStep (s : OtaWorld) (op : OtaOp) (s' : OtaWorld) (es : List OtaEvent) : Prop where
  /-- A session that ends is noticed by the thread that has ended it. -/
  ended : s.relay.targets ≠ [] → s'.relay.targets = [] → ∃ t, .lastLeft t ∈ es
  /-- The trackers to be told are the stored ones without a pending abort. -/
  collected : ∀ t ids, .unsuppressing t ids ∈ es → ∃ env, op = .run t env ∧
    ∀ id, id ∈ ids ↔ id < s.storedTrackers ∧ id < maxTrackers ∧ s.relay.abortPending id env.now = false
  /-- Every step of a call leaves less to be done, and no other step adds to it. -/
  work : ∀ t, s.threads t ≠ [] → (∃ env, op = .run t env) ∧
      callWork (s'.threads t) < callWork (s.threads t) ∨ s'.threads t = s.threads t

/-- What a run keeps. -/
structure CallsInvariant (trace : List OtaEvent) (s : OtaWorld) : Prop where
  session : SessionInvariant s.relay
  calls : ∀ t, CallState t (s.threads t) (callEvents t trace)
  law : EachAfter CallLaw trace

section Runs

open OtaWorld

variable {s s' : OtaWorld} {op : OtaOp} {es : List OtaEvent} {trace : List OtaEvent}

/-- The end of a call. -/
theorem eachAfter_finish {t : ℕ} {rest : List Micro} (hlaw : EachAfter CallLaw trace)
    (hstate : CallState t rest (callEvents t trace)) :
    EachAfter CallLaw (trace ++ finishEvents t rest) := by
  unfold finishEvents
  split
  case isFalse =>
    rw [List.append_nil]
    exact hlaw
  case isTrue hrest =>
    subst hrest
    refine eachAfter_snoc.mpr ⟨hlaw, hstate.once, hstate.balance.symm, fun before after heq => ?_⟩
    rcases hstate.letGo before after heq with hdue | ⟨until_, ids, late, hafter, hids⟩
    · cases hdue
    · exact ⟨until_, ids, late, hafter, fun id hid => (hids id hid).resolve_right (by simp)⟩

theorem finishEvents_bystander (t thread : ℕ) (rest : List Micro) :
    ∀ e ∈ finishEvents thread rest, Bystander t e := by
  intro e he
  unfold finishEvents at he
  split at he
  case isTrue =>
    rw [List.mem_singleton.mp he]
    exact ⟨OtaEvent.noConfusion, OtaEvent.noConfusion, OtaEvent.noConfusion, OtaEvent.noConfusion⟩
  case isFalse => cases he

/-- A PONG changes the trackers and the tombstones only. -/
theorem pong_frame {ping : PingContext} (h : s.pong ping = (s', es)) :
    (∃ tracker abortValid, s' = { s with
        relay := { s.relay with tracker := tracker, abortValid := abortValid } }) ∧
      (SessionInvariant s.relay → SessionInvariant s'.relay) ∧
      ∀ e ∈ es, (∃ id ack, e = .acked id ack) ∨ ∃ id command, e = .ponged id command := by
  have hponged : ∀ command, ∀ e ∈ [OtaEvent.ponged ping.id command], (∃ id ack, e = .acked id ack) ∨
      ∃ id command, e = .ponged id command := by
    intro command e he
    exact .inr ⟨_, _, List.mem_singleton.mp he⟩
  simp only [OtaWorld.pong] at h
  split at h
  case isTrue =>
    obtain ⟨rfl, rfl⟩ := Prod.mk.inj h
    exact ⟨⟨_, _, rfl⟩, fun hsession => hsession, fun e he => by cases he⟩
  split at h
  case isTrue =>
    obtain ⟨rfl, rfl⟩ := Prod.mk.inj h
    exact ⟨⟨_, _, rfl⟩, fun hsession => hsession, hponged _⟩
  split at h
  case isTrue =>
    obtain ⟨rfl, rfl⟩ := Prod.mk.inj h
    exact ⟨⟨_, _, rfl⟩, fun hsession => hsession.expireAbort ping.id ping.now, hponged _⟩
  split at h
  case isFalse =>
    obtain ⟨rfl, rfl⟩ := Prod.mk.inj h
    exact ⟨⟨_, _, rfl⟩, fun hsession => hsession.expireAbort ping.id ping.now, hponged _⟩
  case isTrue =>
    obtain ⟨rfl, rfl⟩ := Prod.mk.inj h
    obtain ⟨tracker, abortValid, hframe⟩ :=
      fillAck_frame (r := s.relay.expireAbort ping.id ping.now) ping.id ping.later ping.stamp none
    refine ⟨⟨tracker, abortValid, ?_⟩,
      fun hsession => (hsession.expireAbort ping.id ping.now).fillAck _ _ _ _, fun e he => ?_⟩
    · rw [OtaWorld.answer, hframe]
      rfl
    · split at he
      · exact .inl ⟨_, _, List.mem_singleton.mp he⟩
      · exact hponged _ e he

/-- A call, a step of a call, or a step of the rest of the receiver. -/
theorem otaStep_cases (h : otaStep s op = some (s', es)) :
    (∃ t call, op = .call t call ∧ s.threads t = [] ∧
      s' = { s with threads := update s.threads t call.start } ∧
      es = [OtaEvent.started t] ++ finishEvents t call.start) ∨
    (∃ t env micro rest, op = .run t env ∧ s.threads t = micro :: rest ∧
      s' = { (s.runMicro t env micro).1 with
        threads := update s.threads t ((s.runMicro t env micro).2.1 ++ rest) } ∧
      es = (s.runMicro t env micro).2.2 ++ finishEvents t ((s.runMicro t env micro).2.1 ++ rest)) ∨
    ((∀ t env, op ≠ .run t env) ∧ (∃ tracker abortValid, s'.relay =
        { s.relay with tracker := tracker, abortValid := abortValid }) ∧ s'.threads = s.threads ∧
      (SessionInvariant s.relay → SessionInvariant s'.relay) ∧
      ∀ e ∈ es, (∃ id ack, e = .acked id ack) ∨ (∃ id command, e = .ponged id command) ∨
        ∃ id, e = .abortRequested id) := by
  cases op with
  | call t call =>
    simp only [otaStep] at h
    split at h
    case isTrue hidle =>
      obtain ⟨rfl, rfl⟩ := Prod.mk.inj (Option.some.inj h)
      exact .inl ⟨t, call, rfl, List.isEmpty_iff.mp hidle, rfl, rfl⟩
    case isFalse => cases h
  | run t env =>
    simp only [otaStep] at h
    cases hthread : s.threads t with
    | nil =>
      rw [hthread] at h
      cases h
    | cons micro rest =>
      rw [hthread] at h
      obtain ⟨rfl, rfl⟩ := Prod.mk.inj (Option.some.inj h)
      exact .inr (.inl ⟨t, env, micro, rest, rfl, hthread, rfl, rfl⟩)
  | ack id now stamp packet =>
    obtain ⟨rfl, rfl⟩ := Prod.mk.inj (Option.some.inj h)
    refine .inr (.inr ⟨fun t env => OtaOp.noConfusion, fillAck_frame id now stamp _, rfl,
      fun hsession => hsession.fillAck id now stamp _, fun e he => ?_⟩)
    obtain ⟨ack, -, rfl⟩ := Option.mem_map.mp (Option.mem_toList.mp he)
    exact .inl ⟨id, ack, rfl⟩
  | pong ping =>
    obtain ⟨⟨tracker, abortValid, hframe⟩, hsession, hevents⟩ := pong_frame (Option.some.inj h)
    exact .inr (.inr ⟨fun t env => OtaOp.noConfusion, ⟨tracker, abortValid, by rw [hframe]⟩,
      by rw [hframe], hsession, fun e he => (hevents e he).imp_right .inl⟩)
  | remote id flag =>
    obtain ⟨rfl, rfl⟩ := Prod.mk.inj (Option.some.inj h)
    refine .inr (.inr ⟨fun t env => OtaOp.noConfusion, ⟨_, _, rfl⟩, rfl, fun hsession => hsession,
      fun e he => ?_⟩)
    split at he
    case isTrue => exact .inr (.inr ⟨_, List.mem_singleton.mp he⟩)
    case isFalse => cases he
  | stored count | radio busy | fault =>
    obtain ⟨rfl, rfl⟩ := Prod.mk.inj (Option.some.inj h)
    exact .inr (.inr ⟨fun t env => OtaOp.noConfusion, ⟨_, _, rfl⟩, rfl, fun hsession => hsession,
      fun e he => by cases he⟩)

/-- Only the radio interrupt answers trackers. -/
theorem otaStep_answer (h : otaStep s op = some (s', es)) {e : OtaEvent} (he : e ∈ es)
    (hanswer : (∃ id ack, e = .acked id ack) ∨ ∃ id command, e = .ponged id command) :
    (∃ id now stamp packet, op = .ack id now stamp packet) ∨ ∃ ping, op = .pong ping := by
  have hfinish : ∀ t rest, e ∉ finishEvents t rest := by
    intro t rest hmem
    unfold finishEvents at hmem
    split at hmem
    case isTrue =>
      rw [List.mem_singleton.mp hmem] at hanswer
      rcases hanswer with ⟨_, _, heq⟩ | ⟨_, _, heq⟩ <;> cases heq
    case isFalse => cases hmem
  cases op with
  | ack id now stamp packet => exact .inl ⟨_, _, _, _, rfl⟩
  | pong ping => exact .inr ⟨_, rfl⟩
  | call t call =>
    simp only [otaStep] at h
    split at h
    case isFalse => cases h
    case isTrue =>
      obtain ⟨-, rfl⟩ := Prod.mk.inj (Option.some.inj h)
      rcases List.mem_cons.mp he with rfl | hend
      · rcases hanswer with ⟨_, _, heq⟩ | ⟨_, _, heq⟩ <;> cases heq
      · exact absurd hend (hfinish _ _)
  | run t env =>
    simp only [otaStep] at h
    cases hthread : s.threads t with
    | nil =>
      rw [hthread] at h
      cases h
    | cons micro rest =>
      rw [hthread] at h
      obtain ⟨-, rfl⟩ := Prod.mk.inj (Option.some.inj h)
      rcases List.mem_append.mp he with hevent | hend
      · rcases hanswer with ⟨_, _, rfl⟩ | ⟨_, _, rfl⟩ <;> cases runMicro_events hevent
      · exact absurd hend (hfinish _ _)
  | remote id flag =>
    obtain ⟨-, rfl⟩ := Prod.mk.inj (Option.some.inj h)
    split at he
    case isTrue =>
      rw [List.mem_singleton.mp he] at hanswer
      rcases hanswer with ⟨_, _, heq⟩ | ⟨_, _, heq⟩ <;> cases heq
    case isFalse => cases he
  | stored count | radio busy | fault =>
    obtain ⟨-, rfl⟩ := Prod.mk.inj (Option.some.inj h)
    cases he

/-- The calls of the other threads go on as before. -/
theorem callState_other {t : ℕ} (h : CallState t (s.threads t) (callEvents t trace))
    (hthreads : s'.threads t = s.threads t) (hes : ∀ e ∈ es, Bystander t e) :
    CallState t (s'.threads t) (callEvents t (trace ++ es)) := by
  rw [hthreads, callEvents_append trace fun hmem => (hes _ hmem).1 rfl]
  exact h.bystander hes

theorem CallsInvariant.call (h : CallsInvariant trace s) (t : ℕ) (call : Call) :
    CallsInvariant (trace ++ ([OtaEvent.started t] ++ finishEvents t call.start))
      { s with threads := update s.threads t call.start } := by
  have hstart := callState_start t call
  refine ⟨h.session, fun other => ?_, ?_⟩
  · by_cases hsame : other = t
    · subst hsame
      have hfinish := finishEvents_bystander other other call.start
      rw [← List.append_assoc, callEvents_append _ fun hmem => (hfinish _ hmem).1 rfl,
        callEvents_started]
      show CallState other (update s.threads other call.start other) _
      rw [Function.update_self]
      exact hstart.bystander hfinish
    · refine callState_other (h.calls other) (Function.update_of_ne hsame _ _) fun e he => ?_
      rcases List.mem_append.mp he with hstarted | hfinish
      · rw [List.mem_singleton.mp hstarted]
        refine ⟨fun heq => hsame (OtaEvent.started.inj heq).symm, ?_⟩
        exact ⟨OtaEvent.noConfusion, OtaEvent.noConfusion, OtaEvent.noConfusion⟩
      · exact finishEvents_bystander other t _ e hfinish
  · rw [← List.append_assoc]
    refine eachAfter_finish (eachAfter_snoc.mpr ⟨h.law, trivial⟩) ?_
    rw [callEvents_started]
    exact hstart

theorem CallsInvariant.run (h : CallsInvariant trace s) {t : ℕ} (env : MicroEnvironment) {micro : Micro}
    {rest : List Micro} (hthread : s.threads t = micro :: rest) :
    CallsInvariant (trace ++ ((s.runMicro t env micro).2.2 ++
        finishEvents t ((s.runMicro t env micro).2.1 ++ rest)))
      { (s.runMicro t env micro).1 with
        threads := update s.threads t ((s.runMicro t env micro).2.1 ++ rest) } := by
  have hcall : CallState t (micro :: rest) (callEvents t trace) := hthread ▸ h.calls t
  have hentry := hcall.entry env s
  refine ⟨(runMicro_session h.session (hcall.admissible _ List.mem_cons_self)).1, fun other => ?_, ?_⟩
  · by_cases hsame : other = t
    · subst hsame
      have hfinish := finishEvents_bystander other other ((s.runMicro other env micro).2.1 ++ rest)
      rw [← List.append_assoc, callEvents_append _ fun hmem => (hfinish _ hmem).1 rfl,
        callEvents_append _ runMicro_not_started]
      show CallState other (update s.threads other _ other) _
      rw [Function.update_self]
      exact hentry.bystander hfinish
    · refine callState_other (h.calls other) (Function.update_of_ne hsame _ _) fun e he => ?_
      exact (List.mem_append.mp he).elim (runMicro_bystander hsame e)
        (finishEvents_bystander other t _ e)
  · rw [← List.append_assoc]
    refine eachAfter_finish (h.law.append fun earlier e he => ?_) ?_
    · cases runMicro_events he <;> exact trivial
    · rw [callEvents_append _ runMicro_not_started]
      exact hentry

/-- Every run keeps the session and the account of every call. -/
theorem calls_invariant (h : otaSystem.Run trace s) : CallsInvariant trace s := by
  refine h.history_invariant (P := CallsInvariant) ⟨sessionInvariant_init, callState_nil, eachAfter_nil⟩
    fun trace s op s' es h _ htaken => ?_
  rcases otaStep_cases htaken with ⟨t, call, -, -, rfl, rfl⟩ | ⟨t, env, micro, rest, -, hthread, rfl, rfl⟩ |
    ⟨-, -, hthreads, hsession, hevents⟩
  · exact h.call t call
  · exact h.run env hthread
  · refine ⟨hsession h.session, fun t => ?_, h.law.append fun earlier e he => ?_⟩
    · refine callState_other (h.calls t) (by rw [hthreads]) fun e he => ?_
      rcases hevents e he with ⟨id, ack, rfl⟩ | ⟨id, command, rfl⟩ | ⟨id, rfl⟩ <;> simp [Bystander]
    · rcases hevents e he with ⟨id, ack, rfl⟩ | ⟨id, command, rfl⟩ | ⟨id, rfl⟩ <;> exact trivial

theorem mem_collected {id : ℕ} {now : BitVec 32} : id ∈ s.collected now false ↔
    id < s.storedTrackers ∧ id < maxTrackers ∧ s.relay.abortPending id now = false := by
  rw [collected, List.mem_filter, List.mem_range, lt_min_iff, and_assoc]
  simp only [looksAt, lt_min_iff, Bool.false_and, Bool.not_false, Bool.and_true, Bool.and_eq_true,
    decide_eq_true_eq, Bool.not_eq_true']
  tauto

theorem CallsInvariant.step (h : CallsInvariant trace s) (htaken : otaStep s op = some (s', es)) :
    SessionStep s op s' es := by
  rcases otaStep_cases htaken with ⟨t, call, -, hidle, rfl, rfl⟩ |
    ⟨t, env, micro, rest, rfl, hthread, rfl, rfl⟩ | ⟨-, ⟨tracker, abortValid, hrelay⟩, hthreads, -, hevents⟩
  · refine ⟨fun hsome hnone => absurd hnone hsome, fun other ids hmem => ?_, fun other hbusy => .inr ?_⟩
    · rcases List.mem_append.mp hmem with hstarted | hfinish
      · cases List.mem_singleton.mp hstarted
      · unfold finishEvents at hfinish
        split at hfinish
        · cases List.mem_singleton.mp hfinish
        · cases hfinish
    · exact Function.update_of_ne (fun hsame : other = t => hbusy (hsame ▸ hidle)) _ _
  · have hadmissible := (h.calls t).admissible micro (hthread ▸ List.mem_cons_self)
    refine ⟨fun hsome hnone => ?_, fun other ids hmem => ?_, fun other _ => ?_⟩
    · exact ⟨t, List.mem_append_left _ ((runMicro_session h.session hadmissible).2 hsome hnone)⟩
    · rcases List.mem_append.mp hmem with hevent | hfinish
      · cases runMicro_events hevent with
        | unsuppressing => exact ⟨env, rfl, fun id => mem_collected⟩
      · unfold finishEvents at hfinish
        split at hfinish
        · cases List.mem_singleton.mp hfinish
        · cases hfinish
    · by_cases hsame : other = t
      · subst hsame
        refine .inl ⟨⟨env, rfl⟩, ?_⟩
        show callWork (update s.threads other _ other) < _
        rw [Function.update_self, hthread, callWork_append, callWork_cons]
        exact Nat.add_lt_add_right (runMicro_work h.session) _
      · exact .inr (Function.update_of_ne hsame _ _)
  · refine ⟨fun hsome hnone => ?_, fun other ids hmem => ?_, fun other _ => .inr (by rw [hthreads])⟩
    · rw [hrelay] at hnone
      exact absurd hnone hsome
    · rcases hevents _ hmem with ⟨id, ack, heq⟩ | ⟨id, command, heq⟩ | ⟨id, heq⟩
      · cases heq
      · cases heq
      · cases heq

end Runs

/-- A call that is not over can go on. -/
theorem exists_run_step {s : OtaWorld} {t : ℕ} (env : MicroEnvironment) (h : s.threads t ≠ []) :
    ∃ s' es, otaStep s (.run t env) = some (s', es) := by
  obtain ⟨micro, rest, hthread⟩ := List.exists_cons_of_ne_nil h
  simp only [otaStep, hthread]
  exact ⟨_, _, rfl⟩

/-- In every run the session agrees with its targets, a call that acquires the radio operation has released
it once when it is over, and the end of a session lets the suppressed trackers go; and every call comes to
its end. -/
theorem session_law {trace : List OtaEvent} {s : OtaWorld} (h : otaSystem.Run trace s) :
    SessionInvariant s.relay ∧ EachAfter CallLaw trace ∧
      (∀ op s' es, otaSystem.step s op = some (s', es) → SessionStep s op s' es) ∧
      ∀ t env, s.threads t ≠ [] → ∃ s' es, otaSystem.step s (.run t env) = some (s', es) :=
  have hcalls := calls_invariant h
  ⟨hcalls.session, hcalls.law, fun _ _ _ htaken => hcalls.step htaken, fun _ env => exists_run_step env⟩

/-- A BEGIN for tracker 0. -/
def beginReport : HidReport where
  data := fun k => if k = 0 then 0xF2 else 0
  len := 64

/-- A quiet moment. -/
def quietMoment : MicroEnvironment := ⟨0, 0, false⟩

/-- Of two stored trackers one is updated, and the update is aborted on the console. -/
def abortedSession : List OtaOp :=
  [OtaOp.stored 2, .call 0 (.hid beginReport)] ++ List.replicate 23 (OtaOp.run 0 quietMoment) ++
    [OtaOp.call 1 (.consoleAbort 0)] ++ List.replicate 4 (OtaOp.run 1 quietMoment)

/-- The other tracker is let go. -/
theorem session_law_aborted : ∃ trace s, otaSystem.Run trace s ∧
    (.finished 0 ∈ trace ∧ .radioReleased 0 ∈ trace ∧ .lastLeft 1 ∈ trace ∧
      .sent 1 1 pongFlagOtaUnsuppress ∈ trace ∧ .finished 1 ∈ trace) ∧
    SessionInvariant s.relay ∧ EachAfter CallLaw trace ∧
      (∀ op s' es, otaSystem.step s op = some (s', es) → SessionStep s op s' es) ∧
      ∀ t env, s.threads t ≠ [] → ∃ s' es, otaSystem.step s (.run t env) = some (s', es) := by
  obtain ⟨trace, s, hrun, htest⟩ := otaSystem.exists_run_of_replay abortedSession
    (fun trace _ => decide (.finished 0 ∈ trace ∧ .radioReleased 0 ∈ trace ∧ .lastLeft 1 ∈ trace ∧
      .sent 1 1 pongFlagOtaUnsuppress ∈ trace ∧ .finished 1 ∈ trace)) (by decide +kernel)
  exact ⟨trace, s, hrun, of_decide_eq_true htest, session_law hrun⟩

end SlimeReceiver.Ota
