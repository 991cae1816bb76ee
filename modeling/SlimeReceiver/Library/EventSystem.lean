import Mathlib.Data.List.Basic

/-! # Guarded systems that report events

A system here is an executable step function: `step s i` is `none` when the input `i` is not
enabled in `s`, and otherwise the next state together with the events the step makes visible. A
run carries the whole list of events reported so far, so a temporal law is a statement about
that list.

* **`RunWhere ok trace s`** — `s` is reached with the history `trace` by steps that all satisfy
  the side condition `ok`; `Run` has no side condition.
* **`RunWhere.history_invariant`** — a relation between history and state that holds at the start
  and is kept by every step holds of every run.
* **`exec`** — replay of a list of inputs, which decides concrete runs.
* **`exec_invariant`**, **`exec_length_le`** — what replay keeps, and how long it can last.
* **`restrict`** — the system that takes only the steps a test admits.
* **`Projection`** — a system as a component of a larger one.
* **`View`** — a part of the state that the events determine.
* **`EachAfter Q trace`** — every event of the trace satisfies `Q` of the events before it. -/

namespace SlimeReceiver

universe u v w

/-- A deterministic guarded system over states `σ`, inputs `ι` and events `ε`. -/
structure EventSystem (σ : Type u) (ι : Type v) (ε : Type w) where
  /-- The state before any input. -/
  init : σ
  /-- One step: `none` when the input is not enabled. -/
  step : σ → ι → Option (σ × List ε)

namespace EventSystem

variable {σ : Type u} {ι : Type v} {ε : Type w} (sys : EventSystem σ ι ε)

/-- `sys.RunWhere ok trace s`: some inputs, each allowed by `ok` where it is taken, lead from the
initial state to `s` and report `trace`. -/
inductive RunWhere (ok : σ → ι → Prop) : List ε → σ → Prop
  | start : RunWhere ok [] sys.init
  | snoc {trace : List ε} {s : σ} {i : ι} {s' : σ} {es : List ε} :
      RunWhere ok trace s → ok s i → sys.step s i = some (s', es) →
        RunWhere ok (trace ++ es) s'

/-- A run without any side condition on its steps. -/
abbrev Run : List ε → σ → Prop := sys.RunWhere (fun _ _ => True)

/-- The states some run leads to. -/
def Reachable (s : σ) : Prop := ∃ trace, sys.Run trace s

variable {sys} {ok : σ → ι → Prop} {trace : List ε} {s : σ}

/-- A relation between history and state that holds initially and is kept by every allowed step
holds of every run. -/
theorem RunWhere.history_invariant {P : List ε → σ → Prop} (hstart : P [] sys.init)
    (hstep : ∀ trace s i s' es, P trace s → ok s i → sys.step s i = some (s', es) →
      P (trace ++ es) s')
    (h : sys.RunWhere ok trace s) : P trace s := by
  induction h with
  | start => exact hstart
  | snoc _ hok htaken ih => exact hstep _ _ _ _ _ ih hok htaken

/-- A predicate of the state alone that holds initially and is kept by every allowed step holds
at the end of every run. -/
theorem RunWhere.invariant {P : σ → Prop} (hstart : P sys.init)
    (hstep : ∀ s i s' es, P s → ok s i → sys.step s i = some (s', es) → P s')
    (h : sys.RunWhere ok trace s) : P s :=
  h.history_invariant (P := fun _ s => P s) hstart
    (fun _ s i s' es hs hok htaken => hstep s i s' es hs hok htaken)

/-- Weakening the side condition keeps a run a run. -/
theorem RunWhere.mono {ok' : σ → ι → Prop} (himp : ∀ s i, ok s i → ok' s i)
    (h : sys.RunWhere ok trace s) : sys.RunWhere ok' trace s := by
  induction h with
  | start => exact .start
  | snoc _ hok htaken ih => exact .snoc ih (himp _ _ hok) htaken

/-- A side condition may be exchanged for one that an invariant makes weaker. -/
theorem RunWhere.of_invariant {ok' : σ → ι → Prop} {P : σ → Prop} (hstart : P sys.init)
    (hstep : ∀ s i s' es, P s → ok s i → sys.step s i = some (s', es) → P s')
    (himp : ∀ s i, P s → ok s i → ok' s i) (h : sys.RunWhere ok trace s) : sys.RunWhere ok' trace s := by
  induction h with
  | start => exact .start
  | snoc hrun hok htaken ih => exact .snoc ih (himp _ _ (hrun.invariant hstart hstep) hok) htaken

/-- Every run with a side condition is a run. -/
theorem RunWhere.run (h : sys.RunWhere ok trace s) : sys.Run trace s :=
  h.mono fun _ _ _ => trivial

/-- A predicate kept by every step holds of every reachable state. -/
theorem Reachable.invariant {P : σ → Prop} (hstart : P sys.init)
    (hstep : ∀ s i s' es, P s → sys.step s i = some (s', es) → P s')
    (h : sys.Reachable s) : P s := by
  obtain ⟨trace, hrun⟩ := h
  exact hrun.invariant hstart fun s i s' es hs _ htaken => hstep s i s' es hs htaken

/-- A step from a reachable state leads to a reachable state. -/
theorem Reachable.step {i : ι} {s' : σ} {es : List ε} (h : sys.Reachable s)
    (htaken : sys.step s i = some (s', es)) : sys.Reachable s' := by
  obtain ⟨trace, hrun⟩ := h
  exact ⟨trace ++ es, .snoc hrun trivial htaken⟩

variable (sys) in
/-- The system from a state on. -/
def startingAt (s : σ) : EventSystem σ ι ε := { sys with init := s }

/-! ## Replay -/

variable (sys) in
/-- Replay a list of inputs from a state, collecting the events; `none` when some input is not
enabled. -/
def exec (s : σ) : List ι → Option (σ × List ε)
  | [] => some (s, [])
  | i :: is => (sys.step s i).bind fun first =>
      (exec first.1 is).map fun rest => (rest.1, first.2 ++ rest.2)

@[simp] theorem exec_nil (s : σ) : sys.exec s [] = some (s, []) := rfl

theorem exec_cons {i : ι} {is : List ι} {s₁ s' : σ} {es es' : List ε}
    (hstep : sys.step s i = some (s₁, es)) (hrest : sys.exec s₁ is = some (s', es')) :
    sys.exec s (i :: is) = some (s', es ++ es') := by
  simp [exec, hstep, hrest]

/-- Replaying two lists in a row is replaying their concatenation. -/
theorem exec_append {is is' : List ι} {s s₁ s' : σ} {es es' : List ε}
    (hfirst : sys.exec s is = some (s₁, es)) (hrest : sys.exec s₁ is' = some (s', es')) :
    sys.exec s (is ++ is') = some (s', es ++ es') := by
  induction is generalizing s es with
  | nil =>
    obtain ⟨rfl, rfl⟩ : s = s₁ ∧ es = [] := by simpa [eq_comm] using hfirst
    simpa using hrest
  | cons i is ih =>
    simp only [exec, Option.bind_eq_some_iff, Option.map_eq_some_iff] at hfirst
    obtain ⟨⟨s₂, es₂⟩, hstep, ⟨s₃, es₃⟩, htail, heq⟩ := hfirst
    obtain ⟨rfl, rfl⟩ : s₃ = s₁ ∧ es₂ ++ es₃ = es := by simpa using heq
    rw [List.cons_append, List.append_assoc]
    exact exec_cons hstep (ih htail)

/-- What replay reaches from the end of a run is again the end of a run. -/
theorem Run.exec {is : List ι} {s' : σ} {es : List ε} (h : sys.Run trace s)
    (hexec : sys.exec s is = some (s', es)) : sys.Run (trace ++ es) s' := by
  induction is generalizing trace s es with
  | nil =>
    obtain ⟨rfl, rfl⟩ : s = s' ∧ es = [] := by simpa [eq_comm] using hexec
    simpa using h
  | cons i is ih =>
    simp only [EventSystem.exec, Option.bind_eq_some_iff, Option.map_eq_some_iff] at hexec
    obtain ⟨⟨s₂, es₂⟩, hstep, ⟨s₃, es₃⟩, htail, heq⟩ := hexec
    obtain ⟨rfl, rfl⟩ : s₃ = s' ∧ es₂ ++ es₃ = es := by simpa using heq
    rw [← List.append_assoc]
    exact ih (.snoc h trivial hstep) htail

/-- Replay from the initial state is a run. -/
theorem run_of_exec {is : List ι} {s' : σ} {es : List ε}
    (hexec : sys.exec sys.init is = some (s', es)) : sys.Run es s' := by
  simpa using Run.exec RunWhere.start hexec

/-- What every step keeps of history and state, replay keeps. -/
theorem exec_invariant {P : List ε → σ → Prop} {is : List ι} {s' : σ} {es : List ε}
    (hstep : ∀ trace s i s' es, P trace s → sys.step s i = some (s', es) → P (trace ++ es) s') (hstart : P [] s)
    (hexec : sys.exec s is = some (s', es)) : P es s' := by
  suffices hall : ∀ trace, P trace s → P (trace ++ es) s' from hall [] hstart
  clear hstart
  induction is generalizing s es with
  | nil =>
    obtain ⟨rfl, rfl⟩ : s = s' ∧ es = [] := by simpa [eq_comm] using hexec
    intro trace hP
    rwa [List.append_nil]
  | cons i is ih =>
    simp only [EventSystem.exec, Option.bind_eq_some_iff, Option.map_eq_some_iff] at hexec
    obtain ⟨⟨s₂, es₂⟩, hfirst, ⟨s₃, es₃⟩, htail, heq⟩ := hexec
    obtain ⟨rfl, rfl⟩ : s₃ = s' ∧ es₂ ++ es₃ = es := by simpa using heq
    intro trace hP
    rw [← List.append_assoc]
    exact ih htail _ (hstep _ _ _ _ _ hP hfirst)

/-- If every step takes from a measure, no replay is longer than what there is of it. -/
theorem exec_length_le {P : List ε → σ → Prop} {measure : σ → ℕ} {is : List ι} {s' : σ} {es : List ε}
    (hstep : ∀ trace s i s' es, P trace s → sys.step s i = some (s', es) → P (trace ++ es) s')
    (hless : ∀ trace s i s' es, P trace s → sys.step s i = some (s', es) → measure s' < measure s) (hstart : P [] s)
    (hexec : sys.exec s is = some (s', es)) : is.length + measure s' ≤ measure s := by
  suffices hall : ∀ trace, P trace s → is.length + measure s' ≤ measure s from hall [] hstart
  clear hstart
  induction is generalizing s es with
  | nil =>
    obtain ⟨rfl, rfl⟩ : s = s' ∧ es = [] := by simpa [eq_comm] using hexec
    exact fun _ _ => Nat.le_of_eq (Nat.zero_add _)
  | cons i is ih =>
    simp only [EventSystem.exec, Option.bind_eq_some_iff, Option.map_eq_some_iff] at hexec
    obtain ⟨⟨s₂, es₂⟩, hfirst, ⟨s₃, es₃⟩, htail, heq⟩ := hexec
    obtain ⟨rfl, rfl⟩ : s₃ = s' ∧ es₂ ++ es₃ = es := by simpa using heq
    intro trace hP
    have hrest : is.length + measure s₃ ≤ measure s₂ := ih htail _ (hstep _ _ _ _ _ hP hfirst)
    have htaken : measure s₂ < measure s := hless _ _ _ _ _ hP hfirst
    rw [List.length_cons]
    omega

variable (sys) in
/-- A run exhibited by replaying its inputs, with a test its history and last state pass. -/
theorem exists_run_of_replay (is : List ι) (test : List ε → σ → Bool)
    (h : (sys.exec sys.init is).any (fun r => test r.2 r.1) = true) :
    ∃ trace s, sys.Run trace s ∧ test trace s = true := by
  rw [Option.any_eq_true_iff_get] at h
  obtain ⟨hsome, htest⟩ := h
  exact ⟨_, _, run_of_exec (Option.some_get hsome).symm, htest⟩

variable (sys) in
/-- A step from a reachable state exhibited by replay, with a test the step passes. -/
theorem exists_step_of_replay (is : List ι) (i : ι) (test : σ → σ → List ε → Bool)
    (h : (sys.exec sys.init is).any
      (fun r => (sys.step r.1 i).any fun q => test r.1 q.1 q.2) = true) :
    ∃ s s' es, sys.Reachable s ∧ sys.step s i = some (s', es) ∧ test s s' es = true := by
  obtain ⟨trace, s, hrun, hstep⟩ :=
    sys.exists_run_of_replay is (fun _ s => (sys.step s i).any fun q => test s q.1 q.2) h
  rw [Option.any_eq_true_iff_get] at hstep
  obtain ⟨hsome, htest⟩ := hstep
  exact ⟨s, _, _, ⟨trace, hrun⟩, (Option.some_get hsome).symm, htest⟩

/-! ## Restricted runs -/

variable (sys) in
/-- The system that takes only the steps `allow` admits. -/
def restrict (allow : σ → ι → Bool) : EventSystem σ ι ε where
  init := sys.init
  step s i := if allow s i then sys.step s i else none

/-- A run of the restricted system is a run under every side condition its test decides. -/
theorem runWhere_of_restrict {allow : σ → ι → Bool} (hallow : ∀ s i, allow s i = true → ok s i)
    (h : (sys.restrict allow).Run trace s) : sys.RunWhere ok trace s := by
  induction h with
  | start => exact .start
  | @snoc trace s i s' es _ _ htaken ih =>
    have hallowed : allow s i = true ∧ sys.step s i = some (s', es) := by
      simp only [restrict] at htaken
      split at htaken
      case isTrue hadmitted => exact ⟨hadmitted, htaken⟩
      case isFalse => cases htaken
    exact .snoc ih (hallow s i hallowed.1) hallowed.2

/-! ## Projections -/

variable {σ' : Type*} {ι' : Type*} {ε' : Type*} {sys' : EventSystem σ' ι' ε'}

variable (sys sys') in
/-- A component of a larger system: what a step does to it is a step of the component's own system,
with the events that concern it, or nothing. -/
structure Projection where
  state : σ → σ'
  event : ε → Option ε'
  init : state sys.init = sys'.init
  step : ∀ s i s₁ es, sys.step s i = some (s₁, es) →
    (state s₁ = state s ∧ es.filterMap event = []) ∨
      ∃ i', sys'.step (state s) i' = some (state s₁, es.filterMap event)

/-- What a run does to a component is a run of the component's system. -/
theorem Projection.run (p : Projection sys sys') (h : sys.Run trace s) :
    sys'.Run (trace.filterMap p.event) (p.state s) := by
  refine h.history_invariant (P := fun trace s => sys'.Run (trace.filterMap p.event) (p.state s))
    ?_ fun trace s i s₁ es hs _ htaken => ?_
  · rw [p.init]
    exact .start
  · rw [List.filterMap_append]
    rcases p.step s i s₁ es htaken with ⟨hsame, hquiet⟩ | ⟨i', hstep⟩
    · rw [hsame, hquiet, List.append_nil]
      exact hs
    · exact .snoc hs trivial hstep

/-- A component of a reachable state is reachable. -/
theorem Projection.reachable (p : Projection sys sys') (h : sys.Reachable s) :
    sys'.Reachable (p.state s) := by
  obtain ⟨trace, hrun⟩ := h
  exact ⟨_, p.run hrun⟩

/-! ## Views -/

variable (sys) in
/-- A view of the state that follows the events: what a step does to it can be told from what the
step reports. -/
structure View (ν : Type*) where
  view : σ → ν
  follow : ν → ε → ν
  step : ∀ s i s' es, sys.step s i = some (s', es) → view s' = es.foldl follow (view s)

/-- A view at the end of a run is the history folded from its initial value. -/
theorem View.run {ν : Type*} (v : View sys ν) (h : sys.Run trace s) :
    v.view s = trace.foldl v.follow (v.view sys.init) := by
  refine h.history_invariant (P := fun trace s => v.view s = trace.foldl v.follow (v.view sys.init))
    rfl fun trace s i s' es hs _ htaken => ?_
  rw [List.foldl_append, ← hs]
  exact v.step s i s' es htaken

end EventSystem

/-- Events that change nothing about a value leave it where it was. -/
theorem foldl_eq_of_fixed {ν : Type*} {ε : Type w} {follow : ν → ε → ν} {es : List ε} {v : ν}
    (h : ∀ e ∈ es, follow v e = v) : es.foldl follow v = v := by
  induction es with
  | nil => rfl
  | cons e es ih =>
    rw [List.foldl_cons, h e List.mem_cons_self]
    exact ih fun e' he' => h e' (List.mem_cons_of_mem _ he')

/-- Events a fold ignores leave every value where it was. -/
theorem foldl_eq_self {ν : Type*} {ε : Type w} {follow : ν → ε → ν} {es : List ε}
    (h : ∀ e ∈ es, ∀ v, follow v e = v) (v : ν) : es.foldl follow v = v :=
  foldl_eq_of_fixed fun e he => h e he v

/-! ## Laws about every event of a trace -/

variable {ε : Type w} {Q : List ε → ε → Prop} {trace : List ε}

/-- Every event `e` of `trace` satisfies `Q` of the events reported before it. -/
def EachAfter (Q : List ε → ε → Prop) (trace : List ε) : Prop :=
  ∀ earlier e later, trace = earlier ++ e :: later → Q earlier e

@[simp] theorem eachAfter_nil : EachAfter Q [] := by
  intro earlier e later h
  simp at h

/-- A trace obeys the law up to and including its last event. -/
theorem eachAfter_snoc {e : ε} : EachAfter Q (trace ++ [e]) ↔ EachAfter Q trace ∧ Q trace e := by
  constructor
  · intro h
    refine ⟨fun earlier e' later htrace => h earlier e' (later ++ [e]) ?_, h trace e [] rfl⟩
    rw [htrace, List.append_assoc, List.cons_append]
  · rintro ⟨htrace, hlast⟩ earlier e' later heq
    rcases List.eq_nil_or_concat later with rfl | ⟨later', e'', rfl⟩
    · obtain ⟨rfl, hee⟩ := List.append_inj' heq rfl
      obtain rfl : e = e' := by simpa using hee
      exact hlast
    · rw [List.concat_eq_append, ← List.cons_append, ← List.append_assoc] at heq
      exact htrace earlier e' later' (List.append_inj' heq rfl).1

/-- The beginning of a lawful trace is lawful. -/
theorem EachAfter.of_append {es : List ε} (h : EachAfter Q (trace ++ es)) : EachAfter Q trace := by
  intro earlier e later htrace
  refine h earlier e (later ++ es) ?_
  rw [htrace, List.append_assoc, List.cons_append]

/-- Events that satisfy `Q` whatever came before extend a lawful trace to a lawful trace. -/
theorem EachAfter.append {es : List ε} (h : EachAfter Q trace) (hes : ∀ h e, e ∈ es → Q h e) :
    EachAfter Q (trace ++ es) := by
  induction es generalizing trace with
  | nil => simpa using h
  | cons e es ih =>
    rw [← List.singleton_append, ← List.append_assoc]
    exact ih (eachAfter_snoc.mpr ⟨h, hes _ _ List.mem_cons_self⟩)
      fun h' e' he' => hes h' e' (List.mem_cons_of_mem _ he')

end SlimeReceiver
