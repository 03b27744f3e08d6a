import ByteMachine.Proofs.Machine.Script

/-!
# Runs of a machine

* `Machine.Step` is one step of a run: a request, a write of a cell, or a command dispatched or
  executed by any table of scripts. A step may fail, and it may fail half way.
* `Machine.perform` gives the machine after some steps, whether they succeed or fail.
* `Machine.trail` spells a run out into single requests, those made inside handlers included;
  `perform_eq_after` and `chained_trail` tie the two together.
-/

namespace ByteMachine.Machine

/-- One step of a run. -/
inductive Step where
  | ask (request : Machine.Request)
  | setValueAt (o : Offset) (value : Byte)
  | dispatch (p : Playbook) (opcode : Opcode) (first second : Offset)
  | execute (p : Playbook) (c : Command)

namespace Step

/-- What the step does. -/
def act : Step → Action Machine Unit
  | .ask request => do
    let _ ← serve request
  | .setValueAt o value => Machine.setValueAt o value
  | .dispatch p opcode first second => p.table.dispatch opcode first second
  | .execute p c => p.table.execute c

/-- The requests that the step is made of. -/
def script : Step → Script Unit
  | .ask request => .order request
  | .setValueAt o value => .write o value
  | .dispatch p opcode first second => p.dispatch opcode first second
  | .execute p c => p.execute c

theorem act_script (s : Step) : s.script.act = s.act := by
  cases s with
  | ask request => exact Script.act_order request
  | setValueAt o value => exact Script.act_write o value
  | dispatch p opcode first second => exact p.act_dispatch opcode first second
  | execute p c => exact p.act_execute c

end Step

/-- The machine after some steps, each of which may succeed or fail. -/
def perform (m : Machine) (steps : List Step) : Machine :=
  steps.foldl (fun m s => (s.act.run m).state) m

theorem perform_cons (m : Machine) (s : Step) (steps : List Step) :
    m.perform (s :: steps) = (s.act.run m).state.perform steps := rfl

theorem perform_append (m : Machine) (xs ys : List Step) :
    m.perform (xs ++ ys) = (m.perform xs).perform ys :=
  List.foldl_append

/-- The requests that some steps make, one after another. -/
def trail : Machine → List Step → List Moment
  | _, [] => []
  | m, s :: steps => s.script.trail m ++ (s.act.run m).state.trail steps

theorem after_script (m : Machine) (s : Step) : m.after (s.script.trail m) = (s.act.run m).state := by
  rw [← Script.state_act, Step.act_script]

theorem perform_eq_after (m : Machine) (steps : List Step) :
    m.perform steps = m.after (m.trail steps) := by
  induction steps generalizing m with
  | nil => rfl
  | cons s steps ih => rw [trail, after_append, after_script, perform_cons, ih]

theorem chained_trail (m : Machine) (steps : List Step) : m.Chained (m.trail steps) := by
  induction steps generalizing m with
  | nil => trivial
  | cons s steps ih =>
    rw [trail, chained_append, after_script]
    exact ⟨s.script.chained_trail m, ih _⟩

end ByteMachine.Machine
