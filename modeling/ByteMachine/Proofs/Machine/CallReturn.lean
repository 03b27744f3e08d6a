import ByteMachine.Instruction.MemoryOnly
import ByteMachine.Proofs.Machine.Run

/-!
# Calls and returns

A step is `Plain` if it leaves the return stack alone, whether it succeeds or fails
(`Plain.keeps_returns`): everything but calls, returns and the direct use of the return stack. A
list of steps is `Balanced` if its calls and returns are nested like brackets, with plain steps
anywhere in between.

* `run_return_of_call`: after a call and steps that keep the return stack, a return goes back to
  where the call was made and takes the return stack back to what it was.
* `Balanced.keeps_returns` and `Balanced.exists_call`: balanced steps keep the return stack, and
  each return among them has a call that it closes.
* `depth_perform`: over any steps that leave the return stack to calls and returns, its height
  counts the calls that were granted against the returns that were granted.

`returns_match_calls` puts these together.
-/

namespace ByteMachine.Machine

/-! ## 1. Steps and the return stack -/

namespace Step

/-- Calling a subroutine. -/
abbrev call (target : InstructionAddress) : Step := .ask (.call target)

/-- Returning from a subroutine. -/
abbrev ret : Step := .ask .ret

theorem act_call (target : InstructionAddress) : (call target).act = callTo target := by
  simp only [act, serve, bind_assoc, pure_bind, bind_pure_unit]

theorem act_ret : ret.act = returnFromCall := by
  simp only [act, serve, bind_assoc, pure_bind, bind_pure_unit]

/-- The steps that have nothing to do with the return stack. -/
inductive Plain : Step → Prop where
  | memory (request : Bank.Request) : Plain (.ask (.memory request))
  | registers (request : RegisterFile.Request) : Plain (.ask (.registers request))
  | pushOperand (value : Byte) : Plain (.ask (.stack (.pushOperand value)))
  | popOperand : Plain (.ask (.stack .popOperand))
  | ip : Plain (.ask .ip)
  | jump (target : InstructionAddress) : Plain (.ask (.jump target))
  | advance : Plain (.ask .advance)
  | setValueAt (o : Offset) (value : Byte) : Plain (.setValueAt o value)
  | dispatch (opcode : Opcode) (first second : Offset) :
      Plain (.dispatch .core opcode first second)
  | execute (c : Command) : Plain (.execute .core c)

theorem keeps_ask {τ : Type} {f : Machine → τ} {request : Machine.Request}
    (h : Action.Keeps f (serve request)) : Action.Keeps f (Step.ask request).act :=
  h.bind fun _ => Action.keeps_pure f ()

theorem Plain.keeps_returns {s : Step} (h : s.Plain) :
    Action.Keeps (fun m => m.stack.returns) s.act := by
  cases h with
  | memory | registers | pushOperand | ip | jump | advance => exact keeps_ask fun _ => rfl
  | popOperand =>
    refine keeps_ask fun m => ?_
    simp only [serve, onStacks, Stacks.serve, Action.run_within]
    cases h : m.stack.operands with
    | nil => rw [Action.bind_of_error (Stacks.popOperand_of_nil h)]
    | cons value rest => rw [Action.bind_of_ok (Stacks.popOperand_of_cons h)]; rfl
  | setValueAt => exact fun _ => rfl
  | dispatch opcode first second =>
    exact fun m =>
      congrArg Stacks.returns ((Table.memoryOnly_dispatch_core opcode first second).keeps_stack m)
  | execute c =>
    exact fun m => congrArg Stacks.returns ((Table.memoryOnly_execute_core c).keeps_stack m)

end Step

/-! ## 2. Balanced steps -/

/-- Calls and returns are nested like brackets. -/
inductive Balanced : List Step → Prop where
  | nil : Balanced []
  | plain {s : Step} {steps : List Step} (h : s.Plain) (rest : Balanced steps) :
      Balanced (s :: steps)
  | nest (target : InstructionAddress) {body steps : List Step} (inner : Balanced body)
      (rest : Balanced steps) : Balanced (.call target :: (body ++ .ret :: steps))

/-- **A return goes back to where the call was made.** -/
theorem run_return_of_call {body : List Step}
    (kept : ∀ m : Machine, (m.perform body).stack.returns = m.stack.returns)
    (m : Machine) (target : InstructionAddress) :
    returnFromCall.run (m.perform (.call target :: body)) =
      let inside := m.perform (.call target :: body)
      ⟨.ok (), { inside with
        registers := inside.registers.jump m.ip
        stack := { inside.stack with returns := m.stack.returns } },
        [.returning inside.ip m.ip]⟩ := by
  refine returnFromCall_of_cons ?_
  rw [perform_cons, kept, Step.act_call, run_callTo]
  rfl

namespace Balanced

theorem keeps_returns {steps : List Step} (h : Balanced steps) (m : Machine) :
    (m.perform steps).stack.returns = m.stack.returns := by
  induction h generalizing m with
  | nil => rfl
  | plain s _ ih =>
    rw [perform_cons, ih]
    exact s.keeps_returns m
  | @nest target body steps _ _ inner rest =>
    have closed := run_return_of_call inner m target
    rw [← List.cons_append, perform_append, perform_cons, rest, Step.act_ret, closed]

/-- Every return closes a call: the last one that is still open. -/
theorem exists_call {steps before after : List Step} (h : Balanced steps)
    (split : steps = before ++ .ret :: after) :
    ∃ pre target body, before = pre ++ .call target :: body ∧ Balanced body := by
  induction h generalizing before after with
  | nil => cases before <;> cases split
  | @plain s steps plain _ ih =>
    cases before with
    | nil =>
      obtain ⟨rfl, _⟩ := List.cons.inj split
      cases plain
    | cons x before =>
      obtain ⟨rfl, tail⟩ := List.cons.inj split
      obtain ⟨pre, target, body, rfl, balanced⟩ := ih tail
      exact ⟨s :: pre, target, body, rfl, balanced⟩
  | @nest target inside steps inner _ ihInner ihRest =>
    cases before with
    | nil => cases split
    | cons x before =>
      obtain ⟨rfl, tail⟩ := List.cons.inj split
      -- The return is behind the closing one, is that one, or lies inside the call.
      rcases List.append_eq_append_iff.mp tail with ⟨more, e, rest⟩ | ⟨more, e, rest⟩
      · cases more with
        | nil => exact ⟨[], target, inside, by rw [e, List.append_nil]; rfl, inner⟩
        | cons y more =>
          obtain ⟨rfl, later⟩ := List.cons.inj rest
          obtain ⟨pre, inward, body, rfl, balanced⟩ := ihRest later
          exact ⟨.call target :: (inside ++ .ret :: pre), inward, body, by simp [e], balanced⟩
      · cases more with
        | nil =>
          rw [List.append_nil] at e
          exact ⟨[], target, inside, by rw [e]; rfl, inner⟩
        | cons y more =>
          obtain ⟨rfl, _⟩ := List.cons.inj rest
          obtain ⟨pre, inward, body, rfl, balanced⟩ := ihInner e
          exact ⟨.call target :: pre, inward, body, rfl, balanced⟩

/-- The return that closes a call succeeds, wherever in a run the call was made. -/
theorem return_closes {body : List Step} (h : Balanced body) (m : Machine) (pre : List Step)
    (target : InstructionAddress) :
    (returnFromCall.run (m.perform (pre ++ .call target :: body))).result = .ok () ∧
    (returnFromCall.run (m.perform (pre ++ .call target :: body))).state.ip =
      (m.perform pre).ip := by
  rw [perform_append, run_return_of_call h.keeps_returns]
  exact ⟨rfl, rfl⟩

end Balanced

/-! ## 3. Counting calls and returns -/

namespace Step

/-- The step leaves the return stack to calls and returns. -/
inductive Disciplined : Step → Prop where
  | plain {s : Step} (h : s.Plain) : Disciplined s
  | call (target : InstructionAddress) : Disciplined (.call target)
  | ret : Disciplined .ret

def isCall : Step → Bool
  | .ask (.call _) => true
  | _ => false

def isRet : Step → Bool
  | .ask .ret => true
  | _ => false

theorem Plain.not_isCall {s : Step} (h : s.Plain) : s.isCall = false := by
  cases h <;> rfl

theorem Plain.not_isRet {s : Step} (h : s.Plain) : s.isRet = false := by
  cases h <;> rfl

end Step

/-- The steps of a run that succeed. -/
def granted : Machine → List Step → List Step
  | _, [] => []
  | m, s :: steps =>
    if (s.act.run m).result.isOk then s :: (s.act.run m).state.granted steps
    else (s.act.run m).state.granted steps

/-- How many calls of a run succeed. -/
def calls (m : Machine) (steps : List Step) : Nat := (m.granted steps).countP Step.isCall

/-- How many returns of a run succeed. -/
def rets (m : Machine) (steps : List Step) : Nat := (m.granted steps).countP Step.isRet

theorem granted_cons (m : Machine) (s : Step) (steps : List Step) :
    m.granted (s :: steps) = m.granted [s] ++ (s.act.run m).state.granted steps := by
  simp only [granted]
  split <;> rfl

/-- One step: a call that is granted is one higher, a return that is granted one lower. -/
theorem depth_step {s : Step} (h : s.Disciplined) (m : Machine) :
    (s.act.run m).state.stack.returns.length + m.rets [s] =
      m.stack.returns.length + m.calls [s] := by
  unfold rets calls granted granted
  cases h with
  | plain h =>
    have kept : (s.act.run m).state.stack.returns = m.stack.returns := h.keeps_returns m
    rw [kept]
    split <;> simp [h.not_isCall, h.not_isRet]
  | call target =>
    rw [Step.act_call, run_callTo]
    rfl
  | ret =>
    rw [Step.act_ret]
    cases e : m.stack.returns with
    | nil =>
      rw [returnFromCall_of_nil e, e]
      rfl
    | cons target rest =>
      rw [returnFromCall_of_cons e]
      rfl

/-- **The height of the return stack counts calls against returns.** -/
theorem depth_perform {steps : List Step} (h : ∀ s ∈ steps, s.Disciplined) (m : Machine) :
    (m.perform steps).stack.returns.length + m.rets steps =
      m.stack.returns.length + m.calls steps := by
  induction steps generalizing m with
  | nil => rfl
  | cons s steps ih =>
    obtain ⟨here, later⟩ := List.forall_mem_cons.mp h
    have first := depth_step here m
    have others := ih later (s.act.run m).state
    unfold rets calls at first others ⊢
    rw [perform_cons, granted_cons, List.countP_append, List.countP_append]
    omega

theorem returns_eq_nil_iff {m : Machine} {steps : List Step} (empty : m.stack.returns = [])
    (h : ∀ s ∈ steps, s.Disciplined) :
    (m.perform steps).stack.returns = [] ↔ m.rets steps = m.calls steps := by
  have depth := depth_perform h m
  rw [empty, List.length_nil] at depth
  rw [← List.length_eq_zero_iff]
  omega

theorem return_fails_iff {m : Machine} :
    (∃ fault, (returnFromCall.run m).result = .error fault) ↔ m.stack.returns = [] := by
  constructor
  · rintro ⟨fault, failed⟩
    cases h : m.stack.returns with
    | nil => rfl
    | cons target rest =>
      rw [returnFromCall_of_cons h] at failed
      cases failed
  · intro h
    rw [returnFromCall_of_nil h]
    exact ⟨_, rfl⟩

/-! ## 4. Bracketing -/

/-- **Returns match calls.** Balanced steps end with the return stack that they began with, and
    each return among them succeeds and goes back to where its call was made: the call that has
    balanced steps between itself and the return. After any steps that leave the return stack to
    calls and returns, from an empty one, a return fails exactly if as many returns as calls were
    granted before it, and then it reports the underflow and changes nothing. -/
theorem returns_match_calls :
    (∀ (m : Machine) (steps : List Step), Balanced steps →
      (m.perform steps).stack.returns = m.stack.returns ∧
      ∀ before after, steps = before ++ .ret :: after →
        (returnFromCall.run (m.perform before)).result = .ok () ∧
        (∃ pre target body, before = pre ++ .call target :: body ∧ Balanced body) ∧
        ∀ pre target body, before = pre ++ .call target :: body → Balanced body →
          (returnFromCall.run (m.perform before)).state.ip = (m.perform pre).ip) ∧
    ∀ (m : Machine) (steps : List Step), m.stack.returns = [] → (∀ s ∈ steps, s.Disciplined) →
      ((∃ fault, (returnFromCall.run (m.perform steps)).result = .error fault) ↔
        m.rets steps = m.calls steps) ∧
      (m.rets steps = m.calls steps →
        returnFromCall.run (m.perform steps) =
          ⟨.error (.stackUnderflow .returns), m.perform steps, []⟩) := by
  constructor
  · intro m steps balanced
    refine ⟨balanced.keeps_returns m, fun before after split => ?_⟩
    obtain ⟨pre, target, body, rfl, inner⟩ := balanced.exists_call split
    refine ⟨(inner.return_closes m pre target).1, ⟨pre, target, body, rfl, inner⟩, ?_⟩
    intro pre' target' body' e inner'
    rw [e]
    exact (inner'.return_closes m pre' target').2
  · intro m steps empty disciplined
    have level := returns_eq_nil_iff empty disciplined
    exact ⟨return_fails_iff.trans level, fun equal => returnFromCall_of_nil (level.mpr equal)⟩

/-- It holds of a call inside a call, with a refused `and` between them, and of one return more
    than there were calls. -/
theorem returns_match_calls_nested :
    ∃ m, create { memorySize := 2 } = .ok m ∧
      (returnFromCall.run (m.perform [.ask (.jump 17), .call 200, .dispatch .core ⟨0, 0⟩ 0 9,
        .call 30, .ret])).state.ip = 17 ∧
      (returnFromCall.run (m.perform [.ask (.jump 17), .call 200, .ask .advance, .ret])).result =
        .error (.stackUnderflow .returns) := by
  obtain ⟨m, made, empty⟩ : ∃ m, create { memorySize := 2 } = .ok m ∧ m.stack.returns = [] :=
    ⟨_, rfl, rfl⟩
  have inner : Balanced [.dispatch .core ⟨0, 0⟩ 0 9, .call 30, .ret] :=
    .plain (.dispatch _ _ _) (.nest 30 .nil .nil)
  have whole : Balanced ([.ask (.jump 17), .call 200, .dispatch .core ⟨0, 0⟩ 0 9, .call 30, .ret] ++
      [.ret]) :=
    .plain (.jump 17) (.nest 200 inner .nil)
  have back := (returns_match_calls.1 m _ whole).2 _ _ rfl
  have disciplined : ∀ s ∈ [Step.ask (.jump 17), .call 200, .ask .advance, .ret],
      s.Disciplined := by
    simp only [List.forall_mem_cons, List.not_mem_nil, false_implies, implies_true, and_true]
    exact ⟨.plain (.jump 17), .call 200, .plain .advance, .ret⟩
  refine ⟨m, made, back.2.2 [.ask (.jump 17)] 200 _ rfl inner, ?_⟩
  rw [(returns_match_calls.2 m _ empty disciplined).2 rfl]

end ByteMachine.Machine
