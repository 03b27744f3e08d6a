import ByteMachine.Action.Event

/-!
# Actions

An action on a state `σ` takes the state it is run in to an `Outcome`: a result or a fault, the
state it leaves behind, and the lines it logged. Actions are composed one after another; the
first fault ends the composition, and what was done and logged before it stays
(`bind_of_error`). Nothing is undone by composing, so an action built from several steps can
fail half way.

* `Action.query` looks at the state and may fail, `Action.modify` changes it and cannot. There is
  no single step that does both: whoever checks and then changes is composed of the two.
* `Action.emit` logs; `Action.reporting` logs a fault of the action inside.
* `Action.within` runs an action on one component of a larger state.

`Action.Keeps f a` says that `a` never changes what `f` shows of the state, whatever its result;
it passes through every way of composing actions. `Action.Ends a s result t` says how a run ends,
without regard to what it logs, and `Action.Alike a b s` that two runs end in the same way.
-/

namespace ByteMachine

/-- What running an action gives. -/
structure Outcome (σ α : Type) where
  /-- The result, or why there is none. -/
  result : Except Fault α
  /-- The state left behind, after a fault too. -/
  state : σ
  /-- What was logged, in order. -/
  log : List Event

/-- A computation that reads and changes a state, logs, and may fail. -/
def Action (σ α : Type) : Type := σ → Outcome σ α

namespace Action

variable {σ τ α β γ : Type}

/-! ## 1. Composition -/

/-- Runs an action in a state. -/
def run (a : Action σ α) (s : σ) : Outcome σ α := a s

/-- The action that only gives a value. -/
def give (x : α) : Action σ α := fun s => ⟨.ok x, s, []⟩

/-- The action that only fails. -/
def fail (fault : Fault) : Action σ α := fun s => ⟨.error fault, s, []⟩

/-- One action, and then another that may use the first one's value. -/
def andThen (a : Action σ α) (f : α → Action σ β) : Action σ β := fun s =>
  match a s with
  | ⟨.ok x, t, log⟩ =>
    match f x t with
    | ⟨result, u, more⟩ => ⟨result, u, log ++ more⟩
  | ⟨.error fault, t, log⟩ => ⟨.error fault, t, log⟩

instance : Monad (Action σ) where
  pure := give
  bind := andThen

@[simp] theorem run_pure (x : α) (s : σ) : (pure x : Action σ α).run s = ⟨.ok x, s, []⟩ := rfl

@[simp] theorem run_fail (fault : Fault) (s : σ) :
    (fail fault : Action σ α).run s = ⟨.error fault, s, []⟩ := rfl

/-- After a success the second action runs in the state the first one left. -/
theorem bind_of_ok {a : Action σ α} {f : α → Action σ β} {s t : σ} {x : α} {log : List Event}
    (h : a.run s = ⟨.ok x, t, log⟩) :
    (a >>= f).run s =
      ⟨((f x).run t).result, ((f x).run t).state, log ++ ((f x).run t).log⟩ := by
  show andThen a f s = _
  simp only [andThen, show a s = _ from h]
  rfl

/-- After a success that logged nothing, running both is running the second. -/
theorem bind_of_silent {a : Action σ α} {f : α → Action σ β} {s t : σ} {x : α}
    (h : a.run s = ⟨.ok x, t, []⟩) : (a >>= f).run s = (f x).run t :=
  bind_of_ok h

/-- After a fault the second action does not run. -/
theorem bind_of_error {a : Action σ α} {f : α → Action σ β} {s t : σ} {fault : Fault}
    {log : List Event} (h : a.run s = ⟨.error fault, t, log⟩) :
    (a >>= f).run s = ⟨.error fault, t, log⟩ := by
  show andThen a f s = _
  simp only [andThen, show a s = _ from h]

theorem ext {a b : Action σ α} (h : ∀ s, a.run s = b.run s) : a = b := funext h

instance : LawfulMonad (Action σ) := LawfulMonad.mk' _
  (fun a => ext fun s => by
    rw [show id <$> a = a >>= (pure ∘ id) from rfl]
    rcases h : a.run s with ⟨fault | x, t, log⟩
    · rw [bind_of_error h]
    · rw [bind_of_ok h]
      simp)
  (fun x f => ext fun s => by rw [bind_of_ok (run_pure x s)]; simp)
  (fun a f g => ext fun s => by
    rcases h : a.run s with ⟨fault | x, t, log⟩
    · rw [bind_of_error (bind_of_error h), bind_of_error h]
    · rw [bind_of_ok h]
      have both := bind_of_ok (f := f) h
      rcases k : (f x).run t with ⟨fault | y, u, more⟩
      · rw [k] at both
        rw [bind_of_error k, bind_of_error both]
      · rw [k] at both
        rw [bind_of_ok k, bind_of_ok both, List.append_assoc])

/-! ## 2. Single steps -/

/-- Looks at the state, and may refuse to go on. -/
def query (f : σ → Except Fault α) : Action σ α := fun s => ⟨f s, s, []⟩

/-- Looks at the state, and cannot fail. -/
def view (f : σ → α) : Action σ α := query fun s => .ok (f s)

/-- Changes the state, and cannot fail. -/
def modify (f : σ → σ) : Action σ Unit := fun s => ⟨.ok (), f s, []⟩

@[simp] theorem run_query (f : σ → Except Fault α) (s : σ) : (query f).run s = ⟨f s, s, []⟩ := rfl

@[simp] theorem run_view (f : σ → α) (s : σ) : (view f).run s = ⟨.ok (f s), s, []⟩ := rfl

@[simp] theorem run_modify (f : σ → σ) (s : σ) : (modify f).run s = ⟨.ok (), f s, []⟩ := rfl

theorem run_view_bind (f : σ → α) (g : α → Action σ β) (s : σ) :
    (view f >>= g).run s = (g (f s)).run s :=
  bind_of_silent (run_view f s)

/-- After a look that gives a value, the rest runs on the same state. -/
theorem query_bind_of_ok {f : σ → Except Fault α} {g : α → Action σ β} {s : σ} {x : α}
    (h : f s = .ok x) : (query f >>= g).run s = (g x).run s :=
  bind_of_silent (by rw [run_query, h])

/-- After a look that refuses, nothing more is done. -/
theorem query_bind_of_error {f : σ → Except Fault α} {g : α → Action σ β} {s : σ} {fault : Fault}
    (h : f s = .error fault) : (query f >>= g).run s = ⟨.error fault, s, []⟩ :=
  bind_of_error (by rw [run_query, h])

/-- The state after a run that succeeds. -/
def finish (a : Action σ α) (s : σ) : Except Fault σ := (a.run s).result.map fun _ => (a.run s).state

/-! ## 3. Logging -/

/-- Logs one line. -/
def emit (event : Event) : Action σ Unit := fun s => ⟨.ok (), s, [event]⟩

/-- Runs an action and, if it fails, logs one more line about the fault. -/
def reporting (event : Fault → Event) (a : Action σ α) : Action σ α := fun s =>
  match a s with
  | ⟨.ok x, t, log⟩ => ⟨.ok x, t, log⟩
  | ⟨.error fault, t, log⟩ => ⟨.error fault, t, log ++ [event fault]⟩

@[simp] theorem run_emit (event : Event) (s : σ) :
    (emit event).run s = ⟨.ok (), s, [event]⟩ := rfl

theorem reporting_of_ok {event : Fault → Event} {a : Action σ α} {s t : σ} {x : α}
    {log : List Event} (h : a.run s = ⟨.ok x, t, log⟩) :
    (reporting event a).run s = ⟨.ok x, t, log⟩ := by
  show reporting event a s = _
  simp only [reporting, show a s = _ from h]

theorem reporting_of_error {event : Fault → Event} {a : Action σ α} {s t : σ} {fault : Fault}
    {log : List Event} (h : a.run s = ⟨.error fault, t, log⟩) :
    (reporting event a).run s = ⟨.error fault, t, log ++ [event fault]⟩ := by
  show reporting event a s = _
  simp only [reporting, show a s = _ from h]

@[simp] theorem result_reporting (event : Fault → Event) (a : Action σ α) (s : σ) :
    ((reporting event a).run s).result = (a.run s).result := by
  rcases h : a.run s with ⟨fault | x, t, log⟩
  · rw [reporting_of_error h]
  · rw [reporting_of_ok h]

@[simp] theorem state_reporting (event : Fault → Event) (a : Action σ α) (s : σ) :
    ((reporting event a).run s).state = (a.run s).state := by
  rcases h : a.run s with ⟨fault | x, t, log⟩
  · rw [reporting_of_error h]
  · rw [reporting_of_ok h]

/-! ## 4. Components -/

/-- Runs an action on the component that `get` shows and `put` replaces. -/
def within (get : σ → τ) (put : τ → σ → σ) (a : Action τ α) : Action σ α := fun s =>
  match a (get s) with
  | ⟨result, t, log⟩ => ⟨result, put t s, log⟩

@[simp] theorem run_within (get : σ → τ) (put : τ → σ → σ) (a : Action τ α) (s : σ) :
    (within get put a).run s =
      ⟨(a.run (get s)).result, put (a.run (get s)).state s, (a.run (get s)).log⟩ := rfl

/-! ## 5. What an action keeps -/

/-- The action never changes what `f` shows of the state, whether it succeeds or fails. -/
def Keeps (f : σ → τ) (a : Action σ α) : Prop := ∀ s, f (a.run s).state = f s

theorem keeps_pure (f : σ → τ) (x : α) : Keeps f (pure x : Action σ α) := fun _ => rfl

theorem keeps_query (f : σ → τ) (g : σ → Except Fault α) : Keeps f (query g) := fun _ => rfl

theorem keeps_emit (f : σ → τ) (event : Event) : Keeps f (emit event) := fun _ => rfl

theorem Keeps.bind {f : σ → τ} {a : Action σ α} {g : α → Action σ β} (ha : Keeps f a)
    (hg : ∀ x, Keeps f (g x)) : Keeps f (a >>= g) := fun s => by
  have kept := ha s
  rcases h : a.run s with ⟨fault | x, t, log⟩
  · rw [h] at kept
    rw [bind_of_error h]
    exact kept
  · rw [h] at kept
    rw [bind_of_ok h]
    exact (hg x t).trans kept

/-! ## 6. How a run ends -/

/-- Run in `s`, the action gives the result and leaves the state `t`, whatever it logs. -/
def Ends (a : Action σ α) (s : σ) (result : Except Fault α) (t : σ) : Prop :=
  (a.run s).result = result ∧ (a.run s).state = t

theorem ends_of_run {a : Action σ α} {s t : σ} {result : Except Fault α} {log : List Event}
    (h : a.run s = ⟨result, t, log⟩) : a.Ends s result t := by
  unfold Ends
  rw [h]
  exact ⟨rfl, rfl⟩

theorem Ends.bind {a : Action σ α} {f : α → Action σ β} {s t u : σ} {x : α}
    {result : Except Fault β} (first : a.Ends s (.ok x) t) (second : (f x).Ends t result u) :
    (a >>= f).Ends s result u := by
  rcases h : a.run s with ⟨fault | y, t', log⟩
  · have refused := first.1
    rw [h] at refused
    cases refused
  · unfold Ends at first
    rw [h] at first
    obtain ⟨value, state⟩ := first
    cases value
    cases state
    unfold Ends
    rw [bind_of_ok h]
    exact second

theorem Ends.bind_error {a : Action σ α} {f : α → Action σ β} {s t : σ} {fault : Fault}
    (first : a.Ends s (.error fault) t) : (a >>= f).Ends s (.error fault) t := by
  rcases h : a.run s with ⟨cause | y, t', log⟩
  · unfold Ends at first ⊢
    rw [h] at first
    obtain ⟨reason, state⟩ := first
    cases reason
    rw [bind_of_error h]
    exact ⟨rfl, state⟩
  · have granted := first.1
    rw [h] at granted
    cases granted

/-- Run in `s`, the two actions give the same result and leave the same state. -/
def Alike (a b : Action σ α) (s : σ) : Prop :=
  (a.run s).result = (b.run s).result ∧ (a.run s).state = (b.run s).state

theorem Alike.ends {a b : Action σ α} {s t : σ} {result : Except Fault α} (h : a.Alike b s)
    (hb : b.Ends s result t) : a.Ends s result t := ⟨h.1.trans hb.1, h.2.trans hb.2⟩

theorem Ends.alike_iff {a b : Action σ α} {s t u : σ} {result other : Except Fault α}
    (ha : a.Ends s result t) (hb : b.Ends s other u) : a.Alike b s ↔ result = other ∧ t = u := by
  unfold Alike
  rw [ha.1, ha.2, hb.1, hb.2]

theorem Ends.alike {a b : Action σ α} {s t : σ} {result : Except Fault α}
    (ha : a.Ends s result t) (hb : b.Ends s result t) : a.Alike b s :=
  (ha.alike_iff hb).mpr ⟨rfl, rfl⟩

end Action

end ByteMachine
