import ByteMachine.Demo
import ByteMachine.Instruction.MemoryOnly
import ByteMachine.Proofs.Atomicity

/-!
# A program runs to its end

`Program.Loop` is the loop that runs a program, rule by rule: fetch the command at the instruction
pointer, read as an unsigned word; execute it, whether or not it is refused; advance. A
derivation is a run that comes to an end. There is no counter: what ends the loop is that no
command of the core plugin moves the instruction pointer, so that it goes up by one with each
turn.

* `Machine.obey` is what one command contributes: its effect, or nothing if it is refused.
  `state_execute_core` says that this is what executing it leaves.
* `turn_eq`: one turn of the loop obeys the command and moves the pointer on;
  `foldl_obey_pointedAt`: where the pointer stands makes no difference to what is obeyed.
* `loop_from`: from a place of the program the loop obeys the rest of it, in order.

`loop_runs_program` says what the loop does from any place, and that `Program.run` computes it.
-/

namespace ByteMachine

/-! ## 1. What a command contributes -/

namespace Machine

/-- The machine after a command of the core plugin; one that is refused contributes nothing. -/
def obey (m : Machine) (c : Command) : Machine :=
  ((Table.core.execute c).finish m).toOption.getD m

/-- The machine with the instruction pointer at a place. -/
def pointedAt (m : Machine) (target : InstructionAddress) : Machine :=
  { m with registers := m.registers.jump target }

@[simp] theorem ip_pointedAt (m : Machine) (target : InstructionAddress) :
    (m.pointedAt target).ip = target := rfl

@[simp] theorem pointedAt_pointedAt (m : Machine) (first second : InstructionAddress) :
    (m.pointedAt first).pointedAt second = m.pointedAt second := rfl

theorem pointedAt_ip (m : Machine) : m.pointedAt m.ip = m := rfl

theorem state_execute_core (c : Command) (m : Machine) :
    ((Table.core.execute c).run m).state = m.obey c := by
  unfold obey Action.finish
  rcases h : (Table.core.execute c).run m with ⟨fault | done, after, log⟩
  · have kept := Table.atomic_execute_core c m fault
    rw [h] at kept
    exact kept rfl
  · rfl

theorem registers_obey (m : Machine) (c : Command) : (m.obey c).registers = m.registers := by
  rw [← state_execute_core]
  exact (Table.memoryOnly_execute_core c).keeps_registers m

theorem obey_pointedAt (m : Machine) (target : InstructionAddress) (c : Command) :
    (m.pointedAt target).obey c = (m.obey c).pointedAt target := by
  have moved := ((Table.memoryOnly_execute_core c).run_with_registers m
    (m.registers.jump target)).2
  have here : ((Table.core.execute c).run (m.pointedAt target)).state =
      { m.obey c with registers := m.registers.jump target } := by
    rw [← state_execute_core]
    exact moved
  rw [← state_execute_core, here, pointedAt, registers_obey]

theorem foldl_obey_pointedAt (cs : List Command) (m : Machine) (target : InstructionAddress) :
    cs.foldl obey (m.pointedAt target) = (cs.foldl obey m).pointedAt target := by
  induction cs generalizing m with
  | nil => rfl
  | cons c cs ih => rw [List.foldl_cons, List.foldl_cons, obey_pointedAt, ih]

/-- **One turn obeys the command and moves the instruction pointer on.** -/
theorem turn_eq (c : Command) (m : Machine) :
    (advance.run ((Table.core.execute c).run m).state).state =
      (m.obey c).pointedAt (m.ip + 1) := by
  have same : (m.obey c).ip = m.ip := congrArg RegisterFile.ip (m.registers_obey c)
  rw [state_execute_core, run_advance, ← same]
  rfl

end Machine

/-! ## 2. The loop -/

namespace Program

/-- The loop started with `m` executes some commands, in order, and ends with a machine. -/
inductive Loop (p : Program) : Machine → List Command → Machine → Prop where
  | stop {m : Machine} (past : p[m.ip.toUInt64.toNat]? = none) : Loop p m [] m
  | turn {m after : Machine} {c : Command} {cs : List Command}
      (next : p[m.ip.toUInt64.toNat]? = some c)
      (rest : Loop p (Machine.advance.run ((Table.core.execute c).run m).state).state cs after) :
      Loop p m (c :: cs) after

theorem Loop.unique {p : Program} {m after last : Machine} {cs ds : List Command}
    (first : p.Loop m cs after) (second : p.Loop m ds last) : ds = cs ∧ last = after := by
  induction first generalizing ds with
  | stop past =>
    cases second with
    | stop => exact ⟨rfl, rfl⟩
    | turn next => rw [past] at next; cases next
  | turn next _ ih =>
    cases second with
    | stop past => rw [next] at past; cases past
    | turn next' rest' =>
      rw [next] at next'
      cases next'
      obtain ⟨rfl, rfl⟩ := ih rest'
      exact ⟨rfl, rfl⟩

/-- The unsigned reading of a word. A negative one reads as a number past every program. -/
theorem toInt_eq_unsigned (ip : InstructionAddress) :
    ip.toInt = if 2 * ip.toUInt64.toNat < 18446744073709551616 then (ip.toUInt64.toNat : Int)
      else ip.toUInt64.toNat - 18446744073709551616 :=
  BitVec.toInt_eq_toNat_cond ip.toBitVec

theorem unsigned_of_toInt {ip : InstructionAddress} {i : Nat} (h : ip.toInt = i) :
    ip.toUInt64.toNat = i := by
  have e := toInt_eq_unsigned ip
  have bound := ip.toUInt64.toNat_lt
  split at e <;> omega

section Short

variable {p : Program} (short : p.length < 9223372036854775808)

include short

theorem fetch_of_outside {ip : InstructionAddress} (out : ip < 0 ∨ (p.length : Int) ≤ ip.toInt) :
    p[ip.toUInt64.toNat]? = none := by
  have e := toInt_eq_unsigned ip
  refine List.getElem?_eq_none ?_
  rcases out with negative | past
  · have below : ip.toInt < 0 := Int64.lt_iff_toInt_lt.mp negative
    split at e <;> omega
  · split at e <;> omega

/-- Checking the sign first fetches the same command. -/
theorem fetch?_eq (ip : InstructionAddress) : p.fetch? ip = p[ip.toUInt64.toNat]? := by
  unfold fetch?
  split
  case isTrue nonneg =>
    have e := Int64.cast_toNatClampNeg ip nonneg
    rw [unsigned_of_toInt e.symm]
  case isFalse negative =>
    rw [fetch_of_outside short (.inl (Int64.not_le.mp negative))]

/-- What `run` computes is a run of the loop. -/
theorem loop_run (m : Machine) :
    p.Loop m ((p.run m).steps.map (·.command)) (p.run m).machine := by
  fun_induction run p m with
  | case1 m past =>
    rw [fetch?_eq short] at past
    exact .stop past
  | case2 m c next after rest ih =>
    rw [fetch?_eq short] at next
    have moved : after.2 = (Machine.advance.run ((Table.core.execute c).run m).state).state := by
      show (perform c m).2 = _
      unfold perform
      split
      next h => rw [h]
      next h => rw [h]
    refine .turn next ?_
    rw [← moved]
    exact ih

/-- **From a place of the program the loop obeys the rest of it.** -/
theorem loop_from {i : Nat} {rest : List Command} (split : p.drop i = rest) (le : i ≤ p.length)
    {m : Machine} (here : m.ip.toInt = i) :
    p.Loop m rest ((rest.foldl Machine.obey m).pointedAt (Int64.ofNat p.length)) := by
  induction rest generalizing i m with
  | nil =>
    have ended : p.length ≤ i := List.drop_eq_nil_iff.mp split
    have last : Int64.ofNat p.length = m.ip := by
      apply Int64.toInt_inj.mp
      rw [Int64.toInt_ofNat_of_lt short, here]
      omega
    rw [List.foldl_nil, last, Machine.pointedAt_ip]
    exact .stop (fetch_of_outside short (.inr (by omega)))
  | cons c rest ih =>
    have inside : i < p.length := by
      rcases Nat.lt_or_ge i p.length with lt | ge
      · exact lt
      · rw [List.drop_eq_nil_of_le ge] at split
        cases split
    rw [List.drop_eq_getElem_cons inside, List.cons.injEq] at split
    have next : p[m.ip.toUInt64.toNat]? = some c := by
      rw [unsigned_of_toInt here, List.getElem?_eq_getElem inside, split.1]
    -- The pointer cannot wrap around: it stays at most the length, which is a positive word.
    have further : ((m.obey c).pointedAt (m.ip + 1)).ip.toInt = (i + 1 : Nat) := by
      show (m.ip + 1).toInt = _
      have one : (1 : Int64).toInt = 1 := rfl
      rw [Int64.toInt_add, here, one, Int.bmod_eq_of_le (by omega) (by omega)]
      omega
    have tail := ih split.2 inside further
    rw [Machine.foldl_obey_pointedAt, Machine.pointedAt_pointedAt] at tail
    refine .turn next ?_
    rw [Machine.turn_eq]
    exact tail

end Short

/-! ## 3. Whole runs -/

/-- **The loop comes to an end from every place**, in one way, which `run` computes. From outside
    the program it executes nothing and leaves the machine as it is. From place `i` it executes
    the commands from there to the end, each once and in order; the instruction pointer ends
    behind the program, and all else is what those commands contribute one after another, those
    that are refused contributing nothing. -/
theorem loop_runs_program (p : Program) (short : p.length < 9223372036854775808) (m : Machine) :
    (∃ cs after, p.Loop m cs after) ∧
    ∀ cs after, p.Loop m cs after →
      (cs = (p.run m).steps.map (·.command) ∧ after = (p.run m).machine) ∧
      (m.ip < 0 ∨ (p.length : Int) ≤ m.ip.toInt → cs = [] ∧ after = m) ∧
      ∀ i : Nat, m.ip.toInt = i → i < p.length →
        cs = p.drop i ∧ after.ip.toInt = p.length ∧
        after = ((p.drop i).foldl Machine.obey m).pointedAt (Int64.ofNat p.length) := by
  refine ⟨⟨_, _, loop_run short m⟩, fun cs after loop => ⟨(loop_run short m).unique loop,
    fun out => ?_, fun i here inside => ?_⟩⟩
  · exact (Loop.stop (fetch_of_outside short out)).unique loop
  · obtain ⟨executed, final⟩ :=
      (loop_from short rfl (Nat.le_of_lt inside) here).unique loop
    refine ⟨executed, ?_, final⟩
    rw [final, Machine.ip_pointedAt, Int64.toInt_ofNat_of_lt short]

/-- It holds of the demonstration, whose last command is refused. -/
theorem loop_runs_program_demo :
    Demo.program.length < 9223372036854775808 ∧ ∃ m, Demo.machine = .ok m ∧ ∃ cs after,
      Demo.program.Loop m cs after ∧ cs = Demo.program ∧ after.ip.toInt = 4 := by
  have short : Demo.program.length < 9223372036854775808 := by decide
  obtain ⟨m, made, start⟩ : ∃ m, Demo.machine = .ok m ∧ m.ip = 0 := ⟨_, rfl, rfl⟩
  obtain ⟨⟨cs, after, loop⟩, all⟩ := loop_runs_program Demo.program short m
  obtain ⟨executed, ended, _⟩ := (all cs after loop).2.2 0 (by rw [start]; rfl) (by decide)
  exact ⟨short, m, made, cs, after, loop, executed, ended⟩

end Program

end ByteMachine
