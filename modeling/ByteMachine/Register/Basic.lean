import ByteMachine.Fault

/-!
# Registers

The machine has twenty-eight registers. `Register.all` lists them, and a register's number is its
place in that list. All hold a byte except the instruction pointer, which is numbered with the
others but holds a 64-bit word.

A register is found again by its number (`ofCode?_code`) and by its name (`ofName?_name`), and
nothing else is found (`ofCode?_eq_some`, `ofName?_eq_some`).
-/

namespace ByteMachine

/-- The registers of the machine. -/
inductive Register where
  -- character input and output
  | putc | getc | fputc
  | fputcFlags1 | fputcFlags2 | fputcFlags3 | fputcFlags4
  | stdin | stdout
  -- the result of the last comparison
  | cmpres
  -- general purpose
  | eax | ebx | ecx | edx | eex | efx
  | fax | fbx | fcx | fdx | fex | ffx
  -- source and destination
  | eas | ebs | ead | ebd
  /-- The instruction pointer. -/
  | ip
  /-- The last interrupt. -/
  | lastIntr
  deriving DecidableEq, Repr

namespace Register

/-- All registers in the order of their numbers. -/
def all : List Register :=
  [.putc, .getc, .fputc, .fputcFlags1, .fputcFlags2, .fputcFlags3, .fputcFlags4, .stdin, .stdout,
    .cmpres, .eax, .ebx, .ecx, .edx, .eex, .efx, .fax, .fbx, .fcx, .fdx, .fex, .ffx, .eas, .ebs,
    .ead, .ebd, .ip, .lastIntr]

/-- The register's number: its place in `all`. -/
def code (r : Register) : UInt8 := UInt8.ofNat (all.idxOf r)

/-- The register's name. -/
def name : Register → String
  | .putc => "PUTC"
  | .getc => "GETC"
  | .fputc => "FPUTC"
  | .fputcFlags1 => "FPUTC_FLAGS_1"
  | .fputcFlags2 => "FPUTC_FLAGS_2"
  | .fputcFlags3 => "FPUTC_FLAGS_3"
  | .fputcFlags4 => "FPUTC_FLAGS_4"
  | .stdin => "STDIN"
  | .stdout => "STDOUT"
  | .cmpres => "CMPRES"
  | .eax => "EAX"
  | .ebx => "EBX"
  | .ecx => "ECX"
  | .edx => "EDX"
  | .eex => "EEX"
  | .efx => "EFX"
  | .fax => "FAX"
  | .fbx => "FBX"
  | .fcx => "FCX"
  | .fdx => "FDX"
  | .fex => "FEX"
  | .ffx => "FFX"
  | .eas => "EAS"
  | .ebs => "EBS"
  | .ead => "EAD"
  | .ebd => "EBD"
  | .ip => "IP"
  | .lastIntr => "LASTINTR"

/-- The register is the instruction pointer. -/
def isInstructionPointer (r : Register) : Bool := r == .ip

/-- Every register except the instruction pointer, in the order of their numbers. -/
def bytes : List Register := all.filter fun r => !r.isInstructionPointer

/-- The register with this number. -/
def ofCode? (code : UInt8) : Option Register := all[code.toNat]?

/-- The register with exactly this name. -/
def ofName? (name : String) : Option Register := all.find? (·.name == name)

/-- The register with this number, or the report that there is none. -/
def numbered (code : UInt8) : Except LookupFault Register :=
  match ofCode? code with
  | some r => .ok r
  | none => .error (.unknownCode .registers code)

/-- The register with this name, or the report that there is none. -/
def named (name : String) : Except LookupFault Register :=
  match ofName? name with
  | some r => .ok r
  | none => .error .unknownName

/-- Registers are ordered by their numbers. -/
instance : Ord Register := ⟨compareOn code⟩

instance : Std.TransOrd Register := inferInstanceAs (Std.TransCmp (compareOn code))

/-! ## Numbers and names denote one register each -/

theorem mem_all (r : Register) : r ∈ all := by
  cases r <;> decide

@[simp] theorem ofCode?_code (r : Register) : ofCode? r.code = some r := by
  cases r <;> rfl

theorem code_lt (r : Register) : r.code < 28 := by
  cases r <;> decide

theorem ofCode?_eq_some {code : UInt8} {r : Register} : ofCode? code = some r ↔ r.code = code := by
  constructor
  · intro h
    have bound : code.toNat < 28 := (List.getElem?_eq_some_iff.mp h).1
    have found : ∀ i < 28, all[i]?.map (·.code) = some (UInt8.ofNat i) := by decide
    have := found code.toNat bound
    rw [show all[code.toNat]? = some r from h] at this
    simpa using this
  · rintro rfl
    exact ofCode?_code r

@[simp] theorem ofName?_name (r : Register) : ofName? r.name = some r := by
  cases r <;> decide

theorem ofName?_eq_some {name : String} {r : Register} :
    ofName? name = some r ↔ r.name = name := by
  constructor
  · intro h
    simpa using List.find?_some h
  · rintro rfl
    exact ofName?_name r

theorem mem_bytes {r : Register} : r ∈ bytes ↔ r ≠ .ip := by
  cases r <;> decide

end Register

end ByteMachine
