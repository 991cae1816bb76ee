import SlimeReceiver.Library.History
import SlimeReceiver.Receiver.WomHistory

/-! # WOM confirmation is two-phase and token-bound

* **`Advertised`**, **`Completed`** — the exchange that completes a request.
* **`Since`** — what the events since a request say about its transaction; **`Transaction.follow`**,
  that every event keeps it.
* **`WomLaw`** — what a PONG, a request and a report say about the history before them.
* **`wom_confirmation`** — what a report of success rests on, what becomes of a displaced request,
  and how far apart requests are that share a token. -/

namespace SlimeReceiver

open Receiver

/-! ## The exchange -/

/-- The transaction of request `token` of tracker `id` is gone after this event. -/
def Overwrites (id : ℕ) (token : BitVec 16) : ReceiverEvent → Prop
  | .womRequested mask _ _ => hasBit mask id = true
  | .scheduler (.forgotten j) => j = id
  | .womCancelled mask t => hasBit mask id = true ∧ t = token
  | _ => False

/-- The event displaces request `token` of tracker `id` while it is pending. -/
def Displaces (id : ℕ) (token : BitVec 16) : ReceiverEvent → Prop
  | .commandQueued j _ | .testTargeted j _ _ | .testQueued j _ => j = id
  | e => Overwrites id token e

theorem Overwrites.displaces {id : ℕ} {token : BitVec 16} {e : ReceiverEvent}
    (h : Overwrites id token e) : Displaces id token e := by
  unfold Displaces
  split <;> first | exact h | cases h

/-- A PING with a NORMAL flag was answered with the WOM PONG of the request. -/
def Advertised (id : ℕ) (token minutes : BitVec 16) (counter : BitVec 8)
    (es : List ReceiverEvent) : Prop :=
  ∃ es₁ pong es₂, es = es₁ ++ ReceiverEvent.ponged pongFlagNormal pong :: es₂ ∧ pong.trackerId = id ∧
    pong.command = pongFlagWomControl ∧ pong.payload = .wom minutes token ∧ pong.counter = counter

/-- The request was advertised, and a later PING with another counter replied to it with a legal
value before anything displaced it. -/
def Completed (id : ℕ) (token minutes result error : BitVec 16) (es : List ReceiverEvent) : Prop :=
  ∃ es₁ flag value advertised counter es₂,
    es = es₁ ++ ReceiverEvent.womReplied id flag value token counter :: es₂ ∧
    Advertised id token minutes advertised es₁ ∧ counter ≠ advertised ∧
    (∀ e ∈ es₁, ¬Displaces id token e) ∧
    (womSuccess flag minutes value || womFailure flag value) = true ∧
    result = (if womSuccess flag minutes value then value else 0) ∧
    error = (if womFailure flag value then value else 0)

/-- The request was completed with a legal result. -/
def Confirmed (id : ℕ) (token minutes result : BitVec 16) (es : List ReceiverEvent) : Prop :=
  ∃ es₁ advertised counter es₂,
    es = es₁ ++ ReceiverEvent.womReplied id pingFlagWomResult result token counter :: es₂ ∧
    Advertised id token minutes advertised es₁ ∧ counter ≠ advertised ∧
    (∀ e ∈ es₁, ¬Displaces id token e) ∧ womSuccess pingFlagWomResult minutes result = true

section Exchange

variable {id : ℕ} {token minutes result error : BitVec 16} {counter : BitVec 8}
  {es : List ReceiverEvent}

theorem Advertised.append (h : Advertised id token minutes counter es)
    (later : List ReceiverEvent) : Advertised id token minutes counter (es ++ later) := by
  obtain ⟨es₁, pong, es₂, rfl, hpong⟩ := h
  exact ⟨es₁, pong, es₂ ++ later, by rw [List.append_assoc, List.cons_append], hpong⟩

theorem Completed.append (h : Completed id token minutes result error es)
    (later : List ReceiverEvent) : Completed id token minutes result error (es ++ later) := by
  obtain ⟨es₁, flag, value, advertised, counter, es₂, rfl, hrest⟩ := h
  exact ⟨es₁, flag, value, advertised, counter, es₂ ++ later,
    by rw [List.append_assoc, List.cons_append], hrest⟩

/-- A displaced request is completed only by what came before. -/
theorem Completed.of_displaced {d₁ d₂ : List ReceiverEvent} {e : ReceiverEvent}
    (h : Completed id token minutes result error (d₁ ++ e :: d₂)) (he : Displaces id token e) :
    Completed id token minutes result error d₁ := by
  obtain ⟨es₁, flag, value, advertised, counter, es₂, heq, hadvertised, hcounter, hkept, hlegal⟩ := h
  rcases split_cases heq with ⟨-, rfl, -⟩ | ⟨c, hes₁, -⟩ | ⟨c, hd₁, -⟩
  · exact he.elim
  · exact absurd he (hkept e (by simp [hes₁]))
  · exact ⟨es₁, flag, value, advertised, counter, c, hd₁, hadvertised, hcounter, hkept, hlegal⟩

/-- A request that completes without an error was confirmed. -/
theorem Completed.confirmed (h : Completed id token minutes result 0 es) :
    Confirmed id token minutes result es := by
  obtain ⟨es₁, flag, value, advertised, counter, es₂, rfl, hadvertised, hcounter, hkept, hlegal,
    hresult, herror⟩ := h
  have hnofailure : womFailure flag value = false := by
    by_contra hfailure
    rw [Bool.not_eq_false] at hfailure
    rw [if_pos hfailure] at herror
    simp [womFailure, ← herror] at hfailure
  rw [hnofailure, Bool.or_false] at hlegal
  rw [if_pos hlegal] at hresult
  obtain rfl : flag = pingFlagWomResult := by
    simp only [womSuccess, Bool.and_eq_true, beq_iff_eq] at hlegal
    exact hlegal.1
  obtain rfl := hresult
  exact ⟨es₁, advertised, counter, es₂, rfl, hadvertised, hcounter, hkept, hlegal⟩

end Exchange

/-! ## Since a request -/

/-- What the events `es` since a request say about its transaction. -/
structure Since (id : ℕ) (token minutes : BitVec 16) (es : List ReceiverEvent) (v : WomView) :
    Prop where
  token_eq : v.slot.womToken = token
  kept : ∀ e ∈ es, ¬Overwrites id token e
  incomplete : v.pending = true → v.slot.womComplete = false
  requested : v.pending = true → v.slot.womMinutes = minutes
  undisplaced : v.pending = true → ∀ e ∈ es, ¬Displaces id token e
  advertised : v.pending = true → v.slot.womAdvertised = true →
    Advertised id token minutes v.slot.womFirstPingCounter es
  complete : v.slot.womComplete = true →
    Completed id token minutes v.slot.womMinutes v.slot.womError es ∨
      v.slot.womMinutes = 0 ∧ v.slot.womError = ecanceled

namespace Since

variable {id : ℕ} {token minutes : BitVec 16} {es : List ReceiverEvent} {v : WomView}
  {e : ReceiverEvent}

theorem start (id : ℕ) (token minutes : BitVec 16) :
    Since id token minutes [] ⟨.start token minutes, true⟩ where
  token_eq := rfl
  kept := nofun
  incomplete _ := rfl
  requested _ := rfl
  undisplaced _ := nofun
  advertised _ := nofun
  complete := nofun

/-- An event that leaves the slot alone and displaces the request if it was pending. -/
theorem extend (h : Since id token minutes es v) (hkept : ¬Overwrites id token e) {pending : Bool}
    (hpending : pending = true → v.pending = true ∧ ¬Displaces id token e) :
    Since id token minutes (es ++ [e]) { v with pending := pending } where
  token_eq := h.token_eq
  kept := by
    intro e' he'
    rcases List.mem_append.mp he' with he' | he'
    · exact h.kept e' he'
    · exact List.mem_singleton.mp he' ▸ hkept
  incomplete hp := h.incomplete (hpending hp).1
  requested hp := h.requested (hpending hp).1
  undisplaced hp := by
    intro e' he'
    rcases List.mem_append.mp he' with he' | he'
    · exact h.undisplaced (hpending hp).1 e' he'
    · exact List.mem_singleton.mp he' ▸ (hpending hp).2
  advertised hp hadvertised := (h.advertised (hpending hp).1 hadvertised).append [e]
  complete hcomplete := (h.complete hcomplete).imp_left fun hdone => hdone.append [e]

/-- An event that does not concern the request. -/
theorem quiet (h : Since id token minutes es v) (he : ¬Displaces id token e) :
    Since id token minutes (es ++ [e]) v :=
  h.extend (fun ho => he ho.displaces) fun hp => ⟨hp, he⟩

/-- The first PONG with the request. -/
theorem advertise (h : Since id token minutes es v) {pong : Pong} (hid : pong.trackerId = id)
    (harmed : v.armedBy pong = true) :
    Since id token minutes (es ++ [ReceiverEvent.ponged pongFlagNormal pong]) (v.advertise pong.counter) := by
  simp only [WomView.armedBy, Bool.and_eq_true, beq_iff_eq] at harmed
  obtain ⟨⟨⟨⟨hcommand, hpending⟩, -⟩, hpayload⟩, -⟩ := harmed
  have hquiet := h.quiet (e := .ponged pongFlagNormal pong) fun h => h
  refine { hquiet with advertised := fun hp _ => ?_ }
  refine ⟨es, pong, [], rfl, hid, hcommand, ?_, rfl⟩
  rw [hpayload, h.requested hpending, h.token_eq]

/-- The reply that completes the request. -/
theorem reply (h : Since id token minutes es v) {flag counter : BitVec 8} {value token' : BitVec 16}
    (hcompleted : v.completedBy flag value token' counter = true) :
    Since id token minutes (es ++ [ReceiverEvent.womReplied id flag value token' counter])
      (v.complete flag value) := by
  simp only [WomView.completedBy, WomView.matchedBy, Bool.and_eq_true, bne_iff_ne, beq_iff_eq]
    at hcompleted
  obtain ⟨⟨⟨⟨⟨⟨hpending, -⟩, htoken⟩, -⟩, hadvertised⟩, hcounter⟩, hlegal⟩ := hcompleted
  have hquiet := h.quiet (e := .womReplied id flag value token' counter) fun h => h
  obtain rfl : token' = token := htoken.trans h.token_eq
  refine ⟨h.token_eq, hquiet.kept, by rintro ⟨⟩, by rintro ⟨⟩, by rintro ⟨⟩, by rintro ⟨⟩, fun _ => .inl ?_⟩
  have hminutes := h.requested hpending
  rw [hminutes] at hlegal
  refine ⟨es, flag, value, _, counter, [], rfl, h.advertised hpending hadvertised, hcounter,
    h.undisplaced hpending, hlegal, ?_, rfl⟩
  rw [WomView.complete, hminutes]

/-- A query that finds the request displaced. -/
theorem displace (h : Since id token minutes es v) (hpending : v.pending = false)
    (he : ¬Displaces id token e) :
    Since id token minutes (es ++ [e]) { v with slot := v.slot.displace } := by
  have hquiet := h.quiet he
  have hended : ∀ {p : Prop}, v.pending = true → p := by
    intro p hp
    rw [hpending] at hp
    cases hp
  exact ⟨h.token_eq, hquiet.kept, hended, hended, hended, hended, fun _ => .inr ⟨rfl, rfl⟩⟩

end Since

/-! ## Tokens -/

/-- An event that issues a token. -/
def isWomRequest : ReceiverEvent → Bool
  | .womRequested _ _ _ => true
  | _ => false

/-- The WOM requests of a history, to whichever trackers. -/
def requestsIn (trace : List ReceiverEvent) : ℕ := trace.countP isWomRequest

/-- The token after `n` requests. -/
def tokenAfter (n : ℕ) : BitVec 16 := nextWomToken^[n] 0

theorem nextWomToken_toNat (token : BitVec 16) :
    (nextWomToken token).toNat = token.toNat % 65535 + 1 := by
  unfold nextWomToken
  have hlt := token.isLt
  have hnext : (token + 1).toNat = (token.toNat + 1) % 2 ^ 16 := BitVec.toNat_add token 1
  split
  case isTrue hwraps =>
    have hzero : (token + 1).toNat = 0 := by
      rw [hwraps]
      rfl
    show 1 = token.toNat % 65535 + 1
    omega
  case isFalse hstays =>
    have hpos : (token + 1).toNat ≠ 0 := fun h => hstays (BitVec.eq_of_toNat_eq h)
    omega

theorem tokenAfter_succ_eq (n : ℕ) : tokenAfter (n + 1) = nextWomToken (tokenAfter n) :=
  Function.iterate_succ_apply' nextWomToken n 0

/-- Tokens run through 1 … 65535 in turn. -/
theorem tokenAfter_toNat (n : ℕ) : (tokenAfter (n + 1)).toNat = n % 65535 + 1 := by
  induction n with
  | zero => rfl
  | succ n ih =>
    rw [tokenAfter_succ_eq, nextWomToken_toNat, ih]
    omega

theorem tokenAfter_succ_ne_zero (n : ℕ) : tokenAfter (n + 1) ≠ 0 := by
  intro h
  have hnat := tokenAfter_toNat n
  rw [h] at hnat
  simp at hnat

/-- Two requests fewer than 65535 requests apart have different tokens. -/
theorem tokenAfter_ne {n k : ℕ} (hpos : 0 < k) (hk : k < 65535) :
    tokenAfter (n + 1) ≠ tokenAfter (n + k + 1) := by
  intro h
  have hnat := congrArg BitVec.toNat h
  rw [tokenAfter_toNat, tokenAfter_toNat] at hnat
  omega

/-! ## The transaction of a history -/

/-- The transaction of tracker `id` after a history. -/
def womAfter (id : ℕ) (trace : List ReceiverEvent) : WomView := trace.foldl (WomView.follow id) .zero

@[simp] theorem womAfter_concat (id : ℕ) (trace : List ReceiverEvent) (e : ReceiverEvent) :
    womAfter id (trace ++ [e]) = (womAfter id trace).follow id e := by
  rw [womAfter, List.foldl_append]
  rfl

/-- What an event must satisfy after the events `earlier`: a request takes the next token, a PONG
advertises for the first time only in answer to a NORMAL flag, and a report tells the transaction as
the query leaves it. -/
def WomLaw (earlier : List ReceiverEvent) : ReceiverEvent → Prop
  | .womRequested _ token _ => token = tokenAfter (requestsIn earlier + 1)
  | .ponged flag pong => (womAfter pong.trackerId earlier).armedBy pong = true →
      flag = pongFlagNormal
  | .womReported id token minutes error => id < maxTrackers ∧ token ≠ 0 ∧
      ((womAfter id earlier).follow id (.womReported id token minutes error)).slot.womToken = token ∧
      ((womAfter id earlier).follow id (.womReported id token minutes error)).slot.womComplete = true ∧
      ((womAfter id earlier).follow id (.womReported id token minutes error)).slot.womMinutes =
        minutes ∧
      ((womAfter id earlier).follow id (.womReported id token minutes error)).slot.womError = error
  | _ => True

/-- The transaction of a tracker comes from a request, or there is none. -/
def Transaction (id : ℕ) (trace : List ReceiverEvent) (v : WomView) : Prop :=
  (v.slot.womToken = 0 ∧ v.pending = false) ∨
    ∃ before mask token minutes es, trace = before ++ .womRequested mask token minutes :: es ∧
      hasBit mask id = true ∧ token ≠ 0 ∧ Since id token minutes es v

namespace Transaction

variable {id : ℕ} {trace : List ReceiverEvent} {v : WomView} {e : ReceiverEvent}

/-- An event that leaves a tracker without a transaction, or changes the one it has. -/
theorem change {v' : WomView} (h : Transaction id trace v)
    (hnone : v.slot.womToken = 0 → v.pending = false → v'.slot.womToken = 0 ∧ v'.pending = false)
    (hsince : ∀ token minutes es, token ≠ 0 → Since id token minutes es v →
      Since id token minutes (es ++ [e]) v' ∨ (v'.slot.womToken = 0 ∧ v'.pending = false)) :
    Transaction id (trace ++ [e]) v' := by
  rcases h with ⟨htoken, hpending⟩ | ⟨before, mask, token, minutes, es, rfl, hmask, htoken, h⟩
  · exact .inl (hnone htoken hpending)
  · rcases hsince token minutes es htoken h with h | h
    · refine .inr ⟨before, mask, token, minutes, es ++ [e], ?_, hmask, htoken, h⟩
      rw [List.append_assoc, List.cons_append]
    · exact .inl h

/-- An event that does not concern the tracker. -/
theorem quiet (h : Transaction id trace v) (he : ∀ token, ¬Displaces id token e) :
    Transaction id (trace ++ [e]) v :=
  h.change (fun htoken hpending => ⟨htoken, hpending⟩)
    fun token _ _ _ hsince => .inl (hsince.quiet (he token))

/-- Another command takes the slot. -/
theorem displace (h : Transaction id trace v) (he : ∀ token, ¬Overwrites id token e) :
    Transaction id (trace ++ [e]) { v with pending := false } :=
  h.change (fun htoken _ => ⟨htoken, rfl⟩)
    fun token _ _ _ hsince => .inl (hsince.extend (he token) nofun)

/-- **Every event keeps the transaction.** -/
theorem follow (h : Transaction id trace v) (hv : v = womAfter id trace) (hlaw : WomLaw trace e) :
    Transaction id (trace ++ [e]) (v.follow id e) := by
  cases e with
  | womRequested mask token minutes =>
    by_cases hmask : hasBit mask id = true
    · have htoken : token ≠ 0 := by
        rw [show token = _ from hlaw]
        exact tokenAfter_succ_ne_zero _
      rw [WomView.follow, if_pos hmask]
      exact .inr ⟨trace, mask, token, minutes, [], rfl, hmask, htoken, Since.start id token minutes⟩
    · rw [WomView.follow, if_neg hmask]
      exact h.quiet fun _ => hmask
  | ponged flag pong =>
    by_cases harmed : (pong.trackerId == id && v.armedBy pong) = true
    · rw [WomView.follow, if_pos harmed]
      simp only [Bool.and_eq_true, beq_iff_eq] at harmed
      obtain rfl : flag = pongFlagNormal := by
        refine hlaw ?_
        rw [harmed.1, ← hv]
        exact harmed.2
      refine h.change (fun _ hpending => ?_) fun token minutes es _ hsince =>
        .inl (hsince.advertise harmed.1 harmed.2)
      have hnone := harmed.2
      simp [WomView.armedBy, hpending] at hnone
    · rw [WomView.follow, if_neg harmed]
      exact h.quiet fun _ hd => hd
  | womReplied j flag value token counter =>
    by_cases hcompleted : (j == id && v.completedBy flag value token counter) = true
    · rw [WomView.follow, if_pos hcompleted]
      simp only [Bool.and_eq_true, beq_iff_eq] at hcompleted
      obtain ⟨rfl, hcompleted⟩ := hcompleted
      refine h.change (fun _ hpending => ?_) fun token minutes es _ hsince =>
        .inl (hsince.reply hcompleted)
      simp [WomView.completedBy, WomView.matchedBy, hpending] at hcompleted
    · rw [WomView.follow, if_neg hcompleted]
      exact h.quiet fun _ hd => hd
  | womReported j token minutes error =>
    by_cases hdisplaced : (j == id && v.displacedAt token) = true
    · rw [WomView.follow, if_pos hdisplaced]
      simp only [Bool.and_eq_true, WomView.displacedAt, beq_iff_eq, Bool.not_eq_true'] at hdisplaced
      refine h.change (fun htoken hpending => ⟨htoken, hpending⟩) fun token minutes es _ hsince =>
        .inl (hsince.displace hdisplaced.2.2 fun hd => hd)
    · rw [WomView.follow, if_neg hdisplaced]
      exact h.quiet fun _ hd => hd
  | womCancelled mask token =>
    by_cases hcancelled : v.cancelledBy id mask token = true
    · rw [WomView.follow, if_pos hcancelled]
      exact h.change (fun _ _ => ⟨rfl, rfl⟩) fun _ _ _ _ _ => .inr ⟨rfl, rfl⟩
    · rw [WomView.follow, if_neg hcancelled]
      refine h.change (fun htoken hpending => ⟨htoken, hpending⟩) fun token' minutes es hne hsince =>
        .inl (hsince.quiet ?_)
      rintro ⟨hmask, rfl⟩
      refine hcancelled ?_
      rw [WomView.cancelledBy, hmask, hsince.token_eq, beq_self_eq_true, bne_iff_ne.mpr hne]
      rfl
  | commandQueued j flag | testTargeted j flag tps | testQueued j flag =>
    by_cases hj : j = id
    · rw [WomView.follow, if_pos hj]
      exact h.displace fun _ ho => ho
    · rw [WomView.follow, if_neg hj]
      exact h.quiet fun _ hd => hj hd
  | scheduler te =>
    cases te with
    | forgotten j =>
      by_cases hj : j = id
      · rw [WomView.follow, if_pos hj]
        exact h.change (fun _ _ => ⟨rfl, rfl⟩) fun _ _ _ _ _ => .inr ⟨rfl, rfl⟩
      · rw [WomView.follow, if_neg hj]
        exact h.quiet fun _ hd => hj hd
    | _ => exact h.quiet fun _ hd => hd
  | _ => exact h.quiet fun _ hd => hd

/-- Every lawful history leaves each tracker with the transaction of its newest request. -/
theorem of_trace (id : ℕ) (hlaw : EachAfter WomLaw trace) :
    Transaction id trace (womAfter id trace) := by
  induction trace using List.reverseRecOn with
  | nil => exact .inl ⟨rfl, rfl⟩
  | append_singleton trace e ih =>
    obtain ⟨hearlier, hlast⟩ := eachAfter_snoc.mp hlaw
    rw [womAfter_concat]
    exact (ih hearlier).follow rfl hlast

end Transaction

/-! ## Every run is lawful -/

/-- The events `WomLaw` speaks about. -/
def isWomEvent : ReceiverEvent → Bool
  | .womRequested _ _ _ | .ponged _ _ | .womReported _ _ _ _ => true
  | _ => false

/-- What a run keeps: the token counter and the laws. -/
structure WomLawful (trace : List ReceiverEvent) (r : Receiver) : Prop where
  token : r.womNextToken = tokenAfter (requestsIn trace)
  law : EachAfter WomLaw trace

namespace WomLawful

variable {trace es : List ReceiverEvent} {r r' : Receiver} {op : ReceiverOp}

theorem quiet (h : WomLawful trace r) (htoken : r'.womNextToken = r.womNextToken)
    (hes : ∀ e ∈ es, isWomEvent e = false) : WomLawful (trace ++ es) r' := by
  refine ⟨?_, h.law.append fun earlier e he => ?_⟩
  · have hnone : es.countP isWomRequest = 0 := by
      refine List.countP_eq_zero.mpr fun e he => ?_
      have hquiet := hes e he
      cases e <;> simp_all [isWomEvent, isWomRequest]
    rw [requestsIn, List.countP_append, hnone, htoken]
    exact h.token
  · have hquiet := hes e he
    cases e <;> trivial

/-- A request takes the next token. -/
theorem request (h : WomLawful trace r) (mask : TrackerMask) (minutes : BitVec 16) :
    WomLawful (trace ++ [ReceiverEvent.womRequested mask (nextWomToken r.womNextToken) minutes])
      (r.issueWom mask minutes) := by
  have hnext : nextWomToken r.womNextToken = tokenAfter (requestsIn trace + 1) := by
    rw [tokenAfter_succ_eq, h.token]
  refine ⟨?_, eachAfter_snoc.mpr ⟨h.law, hnext⟩⟩
  rw [requestsIn, List.countP_append, List.countP_singleton]
  exact hnext

/-- The answer to a PING keeps its promise: before the first advertisement a WOM PONG answers a
NORMAL flag only. -/
theorem selectPongCommand_normal {env : PongEnvironment} {p : PingPacket}
    (h : r.selectPongCommand env p = pongFlagWomControl)
    (hfirst : (r.wom p.trackerId).womAdvertised = false) : p.ackFlag = pongFlagNormal := by
  have hdrained : ∀ command : BitVec 8,
      (if command = pongFlagWomControl ∧ (r.wom p.trackerId).womAdvertised = false ∧
          p.ackFlag ≠ pongFlagNormal then pongFlagNormal else command) = pongFlagWomControl →
        p.ackFlag = pongFlagNormal := by
    intro command hcommand
    by_contra hflag
    split at hcommand
    case isTrue => exact absurd hcommand (by decide)
    case isFalse hother => exact hother ⟨hcommand, hfirst, hflag⟩
  exact hdrained _ h

theorem ackCommand_normal {env : PongEnvironment} {p : PingPacket}
    (h : r.ackCommand env p = pongFlagWomControl)
    (hfirst : (r.wom p.trackerId).womAdvertised = false) : p.ackFlag = pongFlagNormal := by
  unfold ackCommand at h
  split at h
  · exact absurd h (by decide)
  · exact selectPongCommand_normal h hfirst

theorem ackPing (h : WomLawful trace r) (hview : ∀ id < maxTrackers, r.womView id = womAfter id trace)
    (env : PongEnvironment) (p : PingPacket) :
    WomLawful (trace ++ ((r.ackPing env p).2.map (.ponged p.ackFlag)).toList) (r.ackPing env p).1 := by
  have htoken : (r.ackPing env p).1.womNextToken = r.womNextToken := by rw [ackPing_eq]
  have hanswer : (r.ackPing env p).2 = r.pongFor env p := by
    unfold Receiver.ackPing
    split <;> simp_all
  rw [hanswer]
  cases hpong : r.pongFor env p with
  | none => exact h.quiet htoken nofun
  | some pong =>
    have hcontent := pongFor_eq hpong
    have hid : p.trackerId < maxTrackers := by
      unfold pongFor at hpong
      simp only [] at hpong
      split at hpong
      · cases hpong
      · omega
    refine ⟨?_, eachAfter_snoc.mpr ⟨h.law, ?_⟩⟩
    · rw [htoken, h.token, requestsIn, requestsIn, List.countP_append]
      rfl
    · intro harmed
      rw [hcontent] at harmed
      rw [← hview p.trackerId hid] at harmed
      simp only [WomView.armedBy, Bool.and_eq_true, beq_iff_eq, Bool.not_eq_true'] at harmed
      exact ackCommand_normal harmed.1.1.1.1 harmed.2

/-- A report tells the transaction as the query leaves it. -/
theorem womResult (h : WomLawful trace r)
    (hview : ∀ id < maxTrackers, r.womView id = womAfter id trace) (id : ℕ) (token : BitVec 16) :
    WomLawful (trace ++ ((r.womResult id token).2.map fun q =>
      .womReported id token q.1 q.2).toList) (r.womResult id token).1 := by
  have htoken : (r.womResult id token).1.womNextToken = r.womNextToken := by rw [womResult_eq]
  cases hresult : (r.womResult id token).2 with
  | none => exact h.quiet htoken nofun
  | some q =>
    have hvalid : id < maxTrackers ∧ token ≠ 0 := by
      by_contra hinvalid
      have hno : id ≥ maxTrackers ∨ token = 0 := by
        by_contra hneither
        exact hinvalid ⟨by omega, fun h => hneither (.inr h)⟩
      rw [Receiver.womResult, if_pos hno] at hresult
      cases hresult
    have hafter : (r.womResult id token).1.womView id =
        (womAfter id trace).follow id (.womReported id token q.1 q.2) := by
      rw [womView_womResult, hresult, hview id hvalid.1]
      rfl
    have hreport : ((r.womResult id token).1.wom id).womToken = token ∧
        ((r.womResult id token).1.wom id).womComplete = true ∧
        ((r.womResult id token).1.wom id).womMinutes = q.1 ∧
        ((r.womResult id token).1.wom id).womError = q.2 := by
      have hinvalid : ¬(id ≥ maxTrackers ∨ token = 0) := by
        rintro (hid | hzero)
        · omega
        · exact hvalid.2 hzero
      rw [Receiver.womResult, if_neg hinvalid] at hresult ⊢
      simp only [Function.update_self] at hresult ⊢
      generalize (if r.womDisplaced id token then (r.wom id).displace else r.wom id) = slot
        at hresult ⊢
      split at hresult
      case isTrue hboth =>
        obtain rfl := Option.some.inj hresult
        exact ⟨hboth.1, hboth.2, rfl, rfl⟩
      case isFalse => cases hresult
    refine ⟨?_, eachAfter_snoc.mpr ⟨h.law, hvalid.1, hvalid.2, ?_⟩⟩
    · rw [htoken, h.token, requestsIn, requestsIn, List.countP_append]
      rfl
    · rw [← hafter]
      exact hreport

/-- **Every step is lawful.** -/
theorem step (h : WomLawful trace r) (hview : ∀ id < maxTrackers, r.womView id = womAfter id trace)
    (hstep : ReceiverRel r op r' es) : WomLawful (trace ++ es) r' := by
  have hscheduler : ∀ tes : List TdmaEvent, ∀ e ∈ tes.map ReceiverEvent.scheduler,
      isWomEvent e = false := by
    intro tes e he
    obtain ⟨te, -, rfl⟩ := List.mem_map.mp he
    rfl
  have hfenced : ∀ tes : List TdmaEvent, ∀ e ∈ tes.map ReceiverEvent.scheduler ++ [ReceiverEvent.fenced],
      isWomEvent e = false := by
    intro tes e he
    rcases List.mem_append.mp he with he | he
    · exact hscheduler tes e he
    · rw [List.mem_singleton.mp he]
      rfl
  have hreset : ∀ (ids : List ℕ) (q : Receiver),
      (ids.foldl (fun (q : Receiver) id => q.resetSlot id) q).womNextToken = q.womNextToken := by
    intro ids
    induction ids with
    | nil => exact fun _ => rfl
    | cons id ids ih => exact fun q => ih (q.resetSlot id)
  cases hstep with
  | ackPing env p => exact h.ackPing hview env p
  | womResult id token => exact h.womResult hview id token
  | womRequest target minutes scanStart => exact h.request _ minutes
  | stutter | clearOtaAbort | allGuard | allScan | allRelease | reconcile | reconcileRead =>
    exact h.quiet rfl nofun
  | plain _ top t tes | lossTick env t tes | pass collecting t tes =>
    exact h.quiet rfl (hscheduler tes)
  | lossTickRebase env t tes | passPublished collecting t tes => exact h.quiet rfl (hfenced tes)
  | roster _ top t tes => exact h.quiet (hreset _ _) (hscheduler tes)
  | clear written t tes =>
    refine h.quiet (hreset _ _) fun e he => ?_
    rcases List.mem_cons.mp he with rfl | he
    · rfl
    · exact hscheduler tes e he
  | resetAllStats => exact h.quiet rfl (by simp [isWomEvent])
  | autoLossFence | autoLossInvalidate | rxDiscontinuity | womCancel | commandQueued | testTargeted
  | allToken | allAbort => exact h.quiet rfl (by simp [isWomEvent])
  | data j seq onOwnPipe isStatus =>
    refine h.quiet ?_ fun e he => ?_
    · have hforward : ∀ q : Receiver, (q.forwardData j (r.checkPacketSequence j seq).2
          isStatus).womNextToken = q.womNextToken := by
        intro q
        unfold forwardData
        split
        · rfl
        · split <;> split <;> rfl
      rw [hforward, checkPacketSequence_eq, observe]
      split <;> rfl
    · rcases List.mem_cons.mp he with rfl | he
      · unfold sequenceEvent
        cases (r.checkPacketSequence j seq).2 <;> rfl
      · rcases List.mem_append.mp he with he | he
        · rw [of_mem_observeEvents he]
          rfl
        · rw [(mem_eventIf.mp he).2]
          rfl
  | ping p =>
    refine h.quiet ?_ fun e he => ?_
    · unfold observe
      rw [receivePing_eq]
      split <;> rfl
    · rcases List.mem_append.mp he with he | he
      · rw [of_mem_observeEvents he]
        rfl
      · rcases of_mem_pingEvents he with rfl | rfl | rfl | rfl <;> rfl
  | allPublish command token mask =>
    refine h.quiet ?_ fun e he => ?_
    · rw [publishAll_eq]
      cases command <;> rfl
    · rcases of_mem_publishAllEvents he with rfl | ⟨rfl, -⟩ | ⟨j, rfl⟩ | ⟨j, rfl⟩ <;> rfl
  | noteLayout oldMask newMask activeCount now =>
    refine h.quiet (by rw [testAllNoteLayout_eq]) fun e he => ?_
    rcases of_mem_noteLayoutEvents he with ⟨j, rfl⟩ | ⟨j, rfl⟩ <;> rfl
  | updateEffective activeCount now =>
    refine h.quiet (by rw [testAllUpdateEffective_eq]) fun e he => ?_
    rcases of_mem_updateEffectiveEvents he with ⟨j, rfl⟩ | ⟨j, rfl⟩ <;> rfl
  | reconcilePublish now enabled =>
    refine h.quiet (by rw [testAllReconcile_eq]) fun e he => ?_
    rcases of_mem_reconcileEvents he with ⟨j, rfl⟩ | ⟨j, rfl⟩ <;> rfl

end WomLawful

/-- The transactions at the end of a run are those of its history. -/
theorem womView_of_run {trace : List ReceiverEvent} {r : Receiver}
    (h : receiverSystem.Run trace r) {id : ℕ} (hid : id < maxTrackers) :
    r.womView id = womAfter id trace := (womTrackerView hid).run h

theorem womLawful_of_run {trace : List ReceiverEvent} {r : Receiver}
    (h : receiverSystem.Run trace r) : WomLawful trace r := by
  have hboth : receiverSystem.Run trace r ∧ WomLawful trace r := by
    refine h.history_invariant (P := fun trace r => receiverSystem.Run trace r ∧ WomLawful trace r)
      ⟨.start, rfl, eachAfter_nil⟩ fun trace r op r' es hrun _ hstep => ?_
    exact ⟨.snoc hrun.1 trivial hstep,
      hrun.2.step (fun id hid => womView_of_run hrun.1 hid) (receiverStep_rel hstep)⟩
  exact hboth.2

/-! ## Reports -/

section Reports

variable {trace before since later : List ReceiverEvent} {r : Receiver} {mask : TrackerMask}
  {token minutes result error : BitVec 16} {id : ℕ}

/-- What a report rests on: the newest request of its tracker, which has its token. -/
theorem report_cases (hlaw : EachAfter WomLaw (since ++ .womReported id token result error :: later)) :
    token ≠ 0 ∧ ∃ before mask minutes es, since = before ++ .womRequested mask token minutes :: es ∧
      hasBit mask id = true ∧ (∀ e ∈ es, ¬Overwrites id token e) ∧
      (Completed id token minutes result error es ∨ result = 0 ∧ error = ecanceled) := by
  have hearlier : EachAfter WomLaw since := hlaw.of_append
  obtain ⟨-, hne, htoken, hcomplete, hresult, herror⟩ := hlaw since _ later rfl
  -- A query leaves the transaction as it is, or ends a displaced one.
  have hquery : (womAfter id since).slot.womToken = token ∧
      ((womAfter id since).slot.womComplete = true ∧ (womAfter id since).slot.womMinutes = result ∧
        (womAfter id since).slot.womError = error ∨ result = 0 ∧ error = ecanceled) := by
    rw [WomView.follow] at htoken hcomplete hresult herror
    by_cases hends : (id == id && (womAfter id since).displacedAt token) = true
    · simp only [if_pos hends] at htoken hresult herror
      exact ⟨htoken, .inr ⟨hresult.symm, herror.symm⟩⟩
    · simp only [if_neg hends] at htoken hcomplete hresult herror
      exact ⟨htoken, .inl ⟨hcomplete, hresult, herror⟩⟩
  refine ⟨hne, ?_⟩
  rcases Transaction.of_trace id hearlier with
    ⟨hnone, -⟩ | ⟨before, mask, token', minutes, es, heq, hmask, -, hsince⟩
  · exact absurd (hquery.1.symm.trans hnone) hne
  · obtain rfl : token' = token := hsince.token_eq.symm.trans hquery.1
    refine ⟨before, mask, minutes, es, heq, hmask, hsince.kept, ?_⟩
    rcases hquery.2 with ⟨hdone, hminutes, herr⟩ | hcancelled
    · rw [← hminutes, ← herr]
      exact hsince.complete hdone
    · exact .inr hcancelled

theorem requestsIn_append (es es' : List ReceiverEvent) :
    requestsIn (es ++ es') = requestsIn es + requestsIn es' := List.countP_append

theorem requestsIn_cons_request (token minutes : BitVec 16) (es : List ReceiverEvent) :
    requestsIn (.womRequested mask token minutes :: es) = requestsIn es + 1 :=
  List.countP_cons_of_pos rfl

/-- Requests fewer than 65535 requests apart have different tokens. -/
theorem request_tokens_ne {mask' : TrackerMask} {token' minutes' : BitVec 16}
    (hlaw : EachAfter WomLaw (before ++ .womRequested mask token minutes ::
      (since ++ .womRequested mask' token' minutes' :: later)))
    (hbound : requestsIn since < 65534) : token ≠ token' := by
  have hfirst : token = tokenAfter (requestsIn before + 1) := hlaw before _ _ rfl
  have hsecond : token' = tokenAfter (requestsIn before + (requestsIn since + 1) + 1) := by
    have hnext := hlaw (before ++ .womRequested mask token minutes :: since)
      (.womRequested mask' token' minutes') later (by simp)
    rw [show token' = _ from hnext, requestsIn_append, requestsIn_cons_request]
  rw [hfirst, hsecond]
  exact tokenAfter_ne (Nat.succ_pos _) (by omega)

/-- A report after a request of its tracker with its token rests on that request or on a later one
that repeats the token. -/
theorem report_of_request (hmask : hasBit mask id = true)
    (hlaw : EachAfter WomLaw (before ++ .womRequested mask token minutes ::
      (since ++ .womReported id token result error :: later))) :
    token ≠ 0 ∧ ∃ minutes' es, es <:+ since ∧
      (requestsIn since < 65535 → es = since ∧ minutes' = minutes) ∧
      (∀ e ∈ es, ¬Overwrites id token e) ∧
      (Completed id token minutes' result error es ∨ result = 0 ∧ error = ecanceled) := by
  have hsplit : before ++ .womRequested mask token minutes ::
      (since ++ .womReported id token result error :: later) =
        (before ++ .womRequested mask token minutes :: since) ++
          .womReported id token result error :: later := by simp
  rw [hsplit] at hlaw
  obtain ⟨hne, before', mask', minutes', es, heq, hmask', hkept, hreport⟩ := report_cases hlaw
  refine ⟨hne, minutes', es, ?_⟩
  rcases split_cases heq with ⟨-, hsame, rfl⟩ | ⟨c, -, rfl⟩ | ⟨c, -, rfl⟩
  · obtain ⟨-, -, rfl⟩ := ReceiverEvent.womRequested.inj hsame
    exact ⟨List.suffix_rfl, fun _ => ⟨rfl, rfl⟩, hkept, hreport⟩
  · refine ⟨⟨c ++ [ReceiverEvent.womRequested mask' token minutes'], by simp⟩, fun hbound => ?_, hkept, hreport⟩
    have hfar : requestsIn c < 65534 := by
      rw [requestsIn_append, requestsIn_cons_request] at hbound
      omega
    have hearlier := hlaw.of_append
    exact absurd rfl (request_tokens_ne hearlier hfar)
  · exact absurd hmask (hkept (.womRequested mask token minutes) (by simp))

/-- While a request is the newest of its tracker, its token is the one replies are matched with. -/
theorem token_of_newest (hlaw : EachAfter WomLaw (before ++ .womRequested mask token minutes :: since))
    (hmask : hasBit mask id = true) (hkept : ∀ e ∈ since, ¬Overwrites id token e) :
    (womAfter id (before ++ .womRequested mask token minutes :: since)).pending = true →
      (womAfter id (before ++ .womRequested mask token minutes :: since)).slot.womToken = token := by
  intro hpending
  rcases Transaction.of_trace id hlaw with
    ⟨-, hnone⟩ | ⟨before', mask', token', minutes', es, heq, hmask', -, hsince⟩
  · rw [hpending] at hnone
    cases hnone
  · rw [hsince.token_eq]
    rcases split_cases heq with ⟨-, hsame, -⟩ | ⟨c, -, rfl⟩ | ⟨c, -, rfl⟩
    · obtain ⟨-, rfl, -⟩ := ReceiverEvent.womRequested.inj hsame
      rfl
    · exact absurd hmask' (hkept (.womRequested mask' token' minutes') (by simp))
    · exact absurd hmask (hsince.kept (.womRequested mask token minutes) (by simp))

/-- A PING whose token is not the one of the pending request leaves the transaction alone. -/
theorem wom_ping_of_ne {p : PingPacket} (hid : id < maxTrackers)
    (hne : (r.womView id).pending = true → (r.womView id).slot.womToken ≠ p.token) {r' : Receiver}
    {es : List ReceiverEvent} (hstep : receiverStep r (.ping p) = some (r', es)) :
    r'.wom id = r.wom id := by
  have hfixed : ∀ e ∈ es, (r.womView id).follow id e = r.womView id := by
    obtain ⟨-, rfl⟩ := Prod.mk.inj (Option.some.inj hstep)
    intro e he
    rcases List.mem_append.mp he with he | he
    · rw [of_mem_observeEvents he]
      rfl
    · rcases of_mem_pingEvents he with rfl | rfl | rfl | rfl
      · rfl
      · rfl
      · have hunmatched : (r.womView id).completedBy p.ackFlag p.value p.token p.counter = false := by
          by_contra hcompleted
          simp only [Bool.not_eq_false, WomView.completedBy, WomView.matchedBy, Bool.and_eq_true,
            beq_iff_eq] at hcompleted
          exact hne hcompleted.1.1.1.1.1.1 hcompleted.1.1.1.1.2.symm
        rw [WomView.follow, hunmatched, Bool.and_false]
        rfl
      · rfl
  have hview := womView_step hid (receiverStep_rel hstep)
  rw [foldl_eq_of_fixed hfixed] at hview
  exact congrArg WomView.slot hview

end Reports

/-- **WOM confirmation is two-phase and token-bound.** In every run: a report of success for a
request rests on a confirmation after it that carries its token, and on its own as long as fewer than
65535 requests follow it; as long as that holds, a request that was displaced before it was completed
is only ever reported as cancelled, and one whose transaction is gone not at all; and a PING with the
token of an earlier request leaves a later one alone if fewer than 65534 requests lie between them. -/
theorem wom_confirmation {trace : List ReceiverEvent} {r : Receiver}
    (h : receiverSystem.Run trace r) :
    (∀ before mask token minutes since id result later,
      trace = before ++ .womRequested mask token minutes ::
        (since ++ .womReported id token result 0 :: later) → hasBit mask id = true →
      token ≠ 0 ∧ (∃ minutes' es, es <:+ since ∧ Confirmed id token minutes' result es) ∧
        (requestsIn since < 65535 → Confirmed id token minutes result since)) ∧
    (∀ before mask token minutes d₁ e d₂ id result error later,
      trace = before ++ .womRequested mask token minutes ::
        ((d₁ ++ e :: d₂) ++ .womReported id token result error :: later) → hasBit mask id = true →
      Displaces id token e → requestsIn (d₁ ++ e :: d₂) < 65535 →
      ¬Overwrites id token e ∧
        ((∀ result error, ¬Completed id token minutes result error d₁) →
          result = 0 ∧ error = ecanceled)) ∧
    ∀ before mask₁ token₁ minutes₁ mid mask₂ token₂ minutes₂ since id,
      trace = before ++ .womRequested mask₁ token₁ minutes₁ ::
        (mid ++ .womRequested mask₂ token₂ minutes₂ :: since) → requestsIn mid < 65534 →
      hasBit mask₂ id = true → id < maxTrackers → (∀ e ∈ since, ¬Overwrites id token₂ e) →
      ∀ p r' es, receiverStep r (.ping p) = some (r', es) → p.token = token₁ →
        r'.wom id = r.wom id := by
  have hlaw := (womLawful_of_run h).law
  refine ⟨?_, ?_, ?_⟩
  · rintro before mask token minutes since id result later rfl hmask
    obtain ⟨hne, minutes', es, hes, hown, -, hreport⟩ := report_of_request hmask hlaw
    have hdone : Confirmed id token minutes' result es := by
      rcases hreport with hdone | ⟨-, herror⟩
      · exact hdone.confirmed
      · exact absurd herror (by decide)
    refine ⟨hne, ⟨minutes', es, hes, hdone⟩, fun hbound => ?_⟩
    obtain ⟨rfl, rfl⟩ := hown hbound
    exact hdone
  · rintro before mask token minutes d₁ e d₂ id result error later rfl hmask hdisplaces hbound
    obtain ⟨-, minutes', es, -, hown, hkept, hreport⟩ := report_of_request hmask hlaw
    obtain ⟨rfl, rfl⟩ := hown hbound
    refine ⟨hkept e (by simp), fun hincomplete => ?_⟩
    rcases hreport with hdone | hcancelled
    · exact absurd (hdone.of_displaced hdisplaces) (hincomplete result error)
    · exact hcancelled
  · rintro before mask₁ token₁ minutes₁ mid mask₂ token₂ minutes₂ since id rfl hbound hmask hid hkept
      p r' es hstep rfl
    refine wom_ping_of_ne hid (fun hpending => ?_) hstep
    have hsplit : before ++ .womRequested mask₁ p.token minutes₁ ::
        (mid ++ .womRequested mask₂ token₂ minutes₂ :: since) =
          (before ++ .womRequested mask₁ p.token minutes₁ :: mid) ++
            .womRequested mask₂ token₂ minutes₂ :: since := by simp
    have hnewest := hsplit ▸ womView_of_run h hid
    rw [hnewest] at hpending ⊢
    rw [token_of_newest (hsplit ▸ hlaw) hmask hkept hpending]
    exact (request_tokens_ne hlaw hbound).symm

/-! ## One exchange, and a token that comes round -/

/-- No other subsystem has a say in the answer. -/
def quietPong : PongEnvironment where
  migration := .none
  metadataWaiting := false
  collectShutdown := false
  otaSuppress := false
  otaAborting := false
  otaReplaces := false
  channelKnown := false

/-- A PING of tracker 0 with the flag NORMAL. -/
def normalPing : PingPacket where
  trackerId := 0
  counter := 1
  flags := pongFlagNormal
  value := 0
  token := 0
  crcValid := true
  pipe := 1

/-- The PING after it, with the result for 30 minutes and token 1. -/
def resultPing : PingPacket where
  trackerId := 0
  counter := 2
  flags := pingFlagWomResult
  value := 30
  token := 1
  crcValid := true
  pipe := 1

/-- Tracker 0 is asked to sleep after 30 minutes, hears of it and confirms. -/
def womExchange : List ReceiverOp :=
  [.restoreStore 2 fun i => i + 1, .womRequest 0 30 0, .ackPing quietPong normalPing,
    .ping resultPing, .womResult 0 1]

/-- In `womExchange` the reported success rests on the exchange. -/
theorem wom_confirmation_exchange : ∃ trace r before since, receiverSystem.Run trace r ∧
    trace = before ++ .womRequested 1 1 30 :: (since ++ .womReported 0 1 30 0 :: []) ∧
    Confirmed 0 1 30 30 since := by
  obtain ⟨trace, r, hrun, htest⟩ := receiverSystem.exists_run_of_replay womExchange
    (fun trace _ => decide (∃ before ∈ trace.inits, ∃ since ∈ trace.tails.flatMap List.inits,
      trace = before ++ .womRequested 1 1 30 :: (since ++ .womReported 0 1 30 0 :: []) ∧
        requestsIn since < 65535)) (by decide +kernel)
  rw [decide_eq_true_eq] at htest
  obtain ⟨before, -, since, -, htrace, hbound⟩ := htest
  exact ⟨trace, r, before, since, hrun, htrace,
    ((wom_confirmation hrun).1 before 1 1 30 since 0 30 [] htrace (by decide)).2.2 hbound⟩

/-- A WOM request that goes to tracker `id`. -/
def isRequestTo (id : ℕ) : ReceiverEvent → Bool
  | .womRequested mask _ _ => hasBit mask id
  | _ => false

/-- What requests to tracker 1 leave alone of the receiver. -/
structure OnlyTrackerOne (r r' : Receiver) : Prop where
  tdma : r'.tdma = r.tdma
  policyTask : r'.policyTask = r.policyTask
  ping : r'.ping = r.ping

/-- A request to a stored tracker is accepted. -/
theorem womRequest_step {r : Receiver} {id : ℕ} (hid : id < maxTrackers) (hfree : r.storeFree = true)
    (hstored : r.isStored id = true) : receiverStep r (.womRequest id 30 0) =
      some (r.issueWom (r.womTargets id 0) 30,
        [.womRequested (r.womTargets id 0) (nextWomToken r.womNextToken) 30]) ∧
      ∀ j, hasBit (r.womTargets id 0) j = true ↔ j = id := by
  have hbits : ∀ j, hasBit (r.womTargets id 0) j = true ↔ j = id := by
    intro j
    have hother : id ≠ targetAll := by
      have hlt : id < 16 := hid
      show id ≠ 0xff
      omega
    rw [womTargets, hasBit_maskBelow (by decide), Bool.and_eq_true, decide_eq_true_eq,
      beq_false_of_ne hother, Bool.false_and, Bool.or_false, Bool.and_eq_true, beq_iff_eq]
    constructor
    · rintro ⟨-, rfl, -⟩
      rfl
    · rintro rfl
      exact ⟨hid, rfl, hstored⟩
  have htargets : r.womTargets id 0 ≠ 0 := mask_ne_zero_of_mem ((hbits id).mpr rfl)
  have hvalid : womRequestValid id 30 = true := by
    have hlt : decide (id < maxTrackers) = true := decide_eq_true hid
    rw [womRequestValid, hlt, Bool.or_true]
    rfl
  have hmask : (r.womRequest id 30 0) = (r.issueWom (r.womTargets id 0) 30, r.womTargets id 0,
      nextWomToken r.womNextToken) := by
    rw [womRequest, hvalid, if_neg (by decide), if_neg htargets]
  refine ⟨?_, hbits⟩
  show (if r.storeFree = true then _ else _) = _
  rw [if_pos hfree, hmask]
  simp only [if_neg htargets]

/-- Any number of requests to tracker 1 draws as many tokens. -/
theorem exec_requests (n : ℕ) {r : Receiver} (hfree : r.storeFree = true)
    (hstored : r.isStored 1 = true) : ∃ r' es,
      receiverSystem.exec r (List.replicate n (ReceiverOp.womRequest 1 30 0)) = some (r', es) ∧
        OnlyTrackerOne r r' ∧ r'.womNextToken = nextWomToken^[n] r.womNextToken ∧
        ∀ e ∈ es, isRequestTo 0 e = false := by
  induction n generalizing r with
  | zero => exact ⟨r, [], rfl, ⟨rfl, rfl, rfl⟩, rfl, nofun⟩
  | succ n ih =>
    obtain ⟨hstep, hbits⟩ := womRequest_step (by decide : 1 < maxTrackers) hfree hstored
    obtain ⟨r', es, hexec, hsame, htoken, hes⟩ :=
      ih (r := r.issueWom (r.womTargets 1 0) 30) hfree hstored
    refine ⟨r', _, EventSystem.exec_cons hstep hexec, ⟨hsame.tdma, hsame.policyTask, hsame.ping⟩, ?_, ?_⟩
    · rw [htoken, Function.iterate_succ_apply]
      rfl
    · intro e he
      rcases List.mem_append.mp he with he | he
      · rw [List.mem_singleton.mp he]
        have hzero : ¬hasBit (r.womTargets 1 0) 0 = true := fun h => absurd ((hbits 0).mp h) (by decide)
        exact Bool.eq_false_of_not_eq_true hzero
      · exact hes e he

/-- Tracker 0 after the first PONG with its request. -/
def advertiseZero (r : Receiver) : Receiver :=
  { r with wom := Function.update r.wom 0 { r.wom 0 with
      womFirstPingCounter := 1
      womAdvertised := true } }

theorem advertiseZero_wom {r : Receiver} (hwom : r.wom 0 = .start 1 30) : (advertiseZero r).wom 0 =
    { WomSlot.start 1 30 with womFirstPingCounter := 1, womAdvertised := true } := by
  simp only [advertiseZero, Function.update_self, hwom]

/-- A pending request with token 1 is advertised by the next PONG. -/
theorem ackPing_pending {r : Receiver} (hcommand : (r.command 0).trackerRemoteCommand = pongFlagWomControl)
    (hwom : r.wom 0 = .start 1 30) :
    receiverSystem.step r (.ackPing quietPong normalPing) = some (advertiseZero r,
      [.ponged pongFlagNormal ⟨0, 1, pongFlagWomControl, .wom 30 1⟩]) := by
  have hselect : r.selectPongCommand quietPong normalPing = pongFlagWomControl := by
    simp [selectPongCommand, quietPong, normalPing, PingPacket.ackFlag, hcommand, pongFlagNormal,
      pongFlagWomControl]
  have hack : r.ackCommand quietPong normalPing = pongFlagWomControl := hselect
  have hpong : r.pongFor quietPong normalPing = some ⟨0, 1, pongFlagWomControl, .wom 30 1⟩ := by
    unfold pongFor
    simp only [hack]
    simp [normalPing, quietPong, maxTrackers, pongFlagWomControl, pongFlagChannelConfirm, pongPayload,
      hwom, WomSlot.start]
  have harms : r.armsWom quietPong ⟨0, 1, pongFlagWomControl, .wom 30 1⟩ = true := by
    simp [armsWom, quietPong, hcommand, hwom, WomSlot.start, WomSlot.zero]
  show some ((r.ackPing quietPong normalPing).1, _) = _
  rw [ackPing, hpong]
  simp only [harms, if_true]
  rfl

/-- The first PING of a tracker with a pending, advertised request completes it when it carries the
request's token and minutes and another counter. -/
theorem resultPing_completes {r : Receiver} (hping : (r.ping 0).pingCounterInitialized = false)
    (hpending : (r.womView 0).pending = true)
    (hwom : r.wom 0 = { WomSlot.start 1 30 with womFirstPingCounter := 1, womAdvertised := true }) :
    ((r.receivePingPacket resultPing).1.wom 0).womComplete = true := by
  have hverdict : (r.ping 0).verdict resultPing.counter r.tdma.uptime = .first := by
    rw [PingSlot.verdict, hping]
    rfl
  have hprocessed : ((r.notePipe resultPing).trackPing resultPing).2 = true := by
    unfold trackPing
    have hsame : ((r.notePipe resultPing).ping resultPing.trackerId).verdict resultPing.counter
        (r.notePipe resultPing).tdma.uptime = .first := by
      rw [verdict_notePipe]
      exact hverdict
    simp only [hsame]
  have hcompleted : (r.womView 0).completedBy resultPing.ackFlag resultPing.value resultPing.token
      resultPing.counter = true := by
    have hslot : (r.womView 0).slot =
        { WomSlot.start 1 30 with womFirstPingCounter := 1, womAdvertised := true } := hwom
    rw [WomView.completedBy, WomView.matchedBy, hpending, hslot]
    decide
  -- The reply is the only event that concerns the transaction.
  have hview : (r.receivePing resultPing).womView 0 =
      (r.pingEvents resultPing).foldl (WomView.follow 0) (r.womView 0) :=
    womView_receivePing resultPing
  have hvalid : ¬(resultPing.trackerId ≥ maxTrackers ∨ resultPing.crcValid = false) := by decide
  have hflag : resultPing.ackFlag = pingFlagWomResult ∨ resultPing.ackFlag = pingFlagWomError := by
    decide
  have hwhose : (resultPing.trackerId == 0) = true := rfl
  have hconfirmed : ∀ v : WomView,
      v.follow 0 (.commandConfirmed resultPing.trackerId resultPing.ackFlag) = v := fun _ => rfl
  rw [pingEvents, if_neg hvalid] at hview
  simp only [show (r.ping resultPing.trackerId).verdict resultPing.counter r.tdma.uptime = .first from
    hverdict, List.foldl_append, foldl_eventIf, reduceCtorEq, or_self, false_and, if_false,
    hprocessed, hflag, and_self, if_true, hconfirmed, ite_self] at hview
  rw [WomView.follow, hwhose, hcompleted, Bool.and_self, if_pos rfl] at hview
  have hcomplete := congrArg (fun v => v.slot.womComplete) hview
  unfold receivePingPacket observe
  split
  · exact hcomplete
  · exact hcomplete

/-- From token 1 on, the token after 65534 more requests is 1 again. -/
theorem tokenAfter_round : nextWomToken (nextWomToken^[65534] 1) = 1 := by
  have hone : (1 : BitVec 16) = tokenAfter 1 := rfl
  have hround : nextWomToken (nextWomToken^[65534] (tokenAfter 1)) = tokenAfter (65535 + 1) := by
    rw [← Function.iterate_succ_apply' nextWomToken, tokenAfter, ← Function.iterate_add_apply]
    rfl
  rw [hone, hround]
  exact BitVec.eq_of_toNat_eq (tokenAfter_toNat 65535)

/-- **A late reply can confirm a later request.** Tracker 0 is asked to sleep after 30 minutes, 65534
requests to tracker 1 follow, and tracker 0 is asked again: the token is the first one's, and a reply
with the token of the first request completes the second. -/
theorem late_reply_completes_later_request : ∃ before mask₁ minutes₁ mid mask₂ minutes₂ since token₁
    token₂ r p r' es,
    receiverSystem.Run (before ++ .womRequested mask₁ token₁ minutes₁ ::
      (mid ++ .womRequested mask₂ token₂ minutes₂ :: since)) r ∧
    hasBit mask₁ 0 = true ∧ hasBit mask₂ 0 = true ∧ (∀ e ∈ mid, isRequestTo 0 e = false) ∧
    (∀ e ∈ since, ¬Overwrites 0 token₂ e) ∧ receiverStep r (.ping p) = some (r', es) ∧
    p.token = token₁ ∧ (r.wom 0).womComplete = false ∧ (r'.wom 0).womComplete = true := by
  obtain ⟨trace₁, r₁, hrun₁, hfacts⟩ := receiverSystem.exists_run_of_replay
    [.restoreStore 2 fun i => i + 1, .womRequest 0 30 0]
    (fun trace r => decide (trace.getLast? = some (.womRequested 1 1 30) ∧ r.womNextToken = 1 ∧
      r.storeFree = true ∧ r.isStored 0 = true ∧ r.isStored 1 = true ∧
      (r.ping 0).pingCounterInitialized = false)) (by decide +kernel)
  obtain ⟨hlast, htoken, hfree, hzero, hone, hping⟩ := of_decide_eq_true hfacts
  obtain ⟨before, rfl⟩ := List.getLast?_eq_some_iff.mp hlast
  -- The requests to tracker 1 use up the other tokens.
  obtain ⟨r₂, mid, hexec, hsame, htoken₂, hmid⟩ := exec_requests 65534 hfree hone
  have hfree₂ : r₂.storeFree = true := by
    rw [storeFree, hsame.tdma, hsame.policyTask]
    exact hfree
  have hzero₂ : r₂.isStored 0 = true := by
    rw [isStored, hsame.tdma]
    exact hzero
  obtain ⟨hrequest, hbits⟩ := womRequest_step (by decide : 0 < maxTrackers) hfree₂ hzero₂
  have hnext : nextWomToken r₂.womNextToken = 1 := by
    rw [htoken₂, htoken]
    exact tokenAfter_round
  have hbit : hasBit (r₂.womTargets 0 0) 0 = true := (hbits 0).mpr rfl
  rw [hnext] at hrequest
  -- The second request of tracker 0 is advertised and then completed by the late reply.
  have hview := womView_issueWom (r := r₂) (by decide : 0 < maxTrackers) (r₂.womTargets 0 0) 30
  rw [WomView.follow, if_pos hbit, hnext] at hview
  have hwom : (r₂.issueWom (r₂.womTargets 0 0) 30).wom 0 = .start 1 30 :=
    congrArg WomView.slot hview
  have hcommand : ((r₂.issueWom (r₂.womTargets 0 0) 30).command 0).trackerRemoteCommand =
      pongFlagWomControl := by
    have hpending := congrArg WomView.pending hview
    exact beq_iff_eq.mp hpending
  have hponged := ackPing_pending hcommand hwom
  have hping₂ : (r₂.ping 0).pingCounterInitialized = false := by
    rw [hsame.ping]
    exact hping
  have hadvertised := advertiseZero_wom hwom
  refine ⟨before, 1, 30, mid, r₂.womTargets 0 0, 30, [.ponged pongFlagNormal
    ⟨0, 1, pongFlagWomControl, .wom 30 1⟩], 1, 1,
    advertiseZero (r₂.issueWom (r₂.womTargets 0 0) 30), resultPing, _, _, ?_, rfl, hbit, hmid, ?_,
    rfl, rfl, ?_, resultPing_completes hping₂ ?_ hadvertised⟩
  · have hasked : receiverSystem.step r₂ (.womRequest 0 30 0) = _ := hrequest
    have hrun := ((hrun₁.exec hexec).snoc trivial hasked).snoc trivial hponged
    simpa using hrun
  · intro e he
    rw [List.mem_singleton.mp he]
    exact fun h => h
  · rw [hadvertised]
    rfl
  · exact beq_iff_eq.mpr hcommand

end SlimeReceiver
