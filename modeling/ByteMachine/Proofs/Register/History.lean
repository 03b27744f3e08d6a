import ByteMachine.Proofs.Atomicity
import ByteMachine.Register.Request

/-!
# The register file remembers what it was told

A register file keeps its bytes in one array, which leaves out the instruction pointer: a register
that is numbered behind it is stored one place before its number. Seen from outside the file is
twenty-seven bytes that have nothing to do with each other, and a counter.

* `slot_eq_place`: the place of a byte register, said by its number.
* `lastByte` and `pointer` say, from the requests made so far, what a byte register and the
  instruction pointer hold; `expected` says which answer follows from that.
* `Recalls f earlier`: the file `f` holds what the requests `earlier` make it hold. A request is
  answered as expected and leaves a file that recalls it too (`Recalls.step`), and so are all
  requests of a run (`Recalls.results_eq`).

`registers_recall` puts this together for every run that starts with zeroed registers.
-/

namespace ByteMachine

/-! ## 1. Numbers and places -/

namespace Register

theorem length_bytes : bytes.length = 27 := by decide

theorem code_inj {r q : Register} : r.code = q.code ↔ r = q := by
  constructor
  · intro same
    have found := ofCode?_code r
    rw [same, ofCode?_code] at found
    exact (Option.some.inj found).symm
  · rintro rfl
    rfl

/-- The register at a place of the numbering. -/
def ofNumber (index : UInt8) (h : index < 28) : Register :=
  all.get ⟨index.toNat, UInt8.lt_iff_toNat_lt.mp h⟩

theorem code_ofNumber {index : UInt8} (h : index < 28) : (ofNumber index h).code = index :=
  ofCode?_eq_some.mp (List.getElem?_eq_getElem (UInt8.lt_iff_toNat_lt.mp h))

/-- The place of a byte register: its number, or one less behind the instruction pointer. -/
def place (r : Register) : Nat := if r.code < 26 then r.code.toNat else r.code.toNat - 1

theorem place_bytes {k : Nat} (h : k < bytes.length) : bytes[k].place = k := by
  have all : ∀ i : Fin bytes.length, (bytes.get i).place = i := by decide
  exact all ⟨k, h⟩

end Register

namespace RegisterFile

open ByteMachine.Action

theorem slot_eq_place {r : Register} (byte : r ≠ .ip) :
    ∃ inside : r.place < Register.bytes.length, slot r = .ok ⟨r.place, inside⟩ := by
  cases r <;> first | exact absurd rfl byte | exact ⟨by decide, rfl⟩

/-- **A byte register is read and written at its place**, which is a place of the array. -/
theorem access_at_place {r : Register} (byte : r ≠ .ip) (f : RegisterFile) (value : Byte) :
    ∃ inside : r.place < Register.bytes.length, f.read r = .ok f.bytes[r.place] ∧
      (write r value).run f = ⟨.ok (), { f with bytes := f.bytes.set r.place value }, []⟩ := by
  obtain ⟨inside, kept⟩ := slot_eq_place byte
  refine ⟨inside, ?_, write_of_slot kept value f⟩
  rw [read, kept]
  rfl

theorem register_code (r : Register) : register r.code = .ok r := by
  rw [register, Register.ofCode?_code]

theorem register_of_le {index : UInt8} (h : 28 ≤ index) :
    register index = .error (.invalidRegister index) := by
  cases found : Register.ofCode? index with
  | none => rw [register, found]
  | some r =>
    have bound := r.code_lt
    rw [Register.ofCode?_eq_some.mp found] at bound
    exact absurd bound (UInt8.not_lt.mpr h)

/-! ## 2. What the requests so far say -/

/-- The byte that a request stores in a register, asked for by its name or by its number. -/
def Request.stored? (r : Register) : Request → Option Byte
  | .write q value => if q = r then some value else none
  | .writeIndexed index value => if index = r.code then some value else none
  | _ => none

/-- Where a request sets the instruction pointer. -/
def Request.target? : Request → Option InstructionAddress
  | .jump target => some target
  | _ => none

/-- The byte that was stored last in a register, or zero; the latest request comes first. -/
def lastByte (earlier : List Request) (r : Register) : Byte :=
  (earlier.findSome? (·.stored? r)).getD 0

/-- The value that was set last and the number of later advances, added up as a 64-bit word. -/
def pointer (earlier : List Request) : InstructionAddress :=
  Int64.ofInt (((earlier.findSome? Request.target?).getD 0).toInt +
    (earlier.takeWhile fun q => q.target?.isNone).count .advance)

/-- The answer to a request for a byte register by its name. -/
def byName (r : Register) (answer : Answer) : Except Fault Answer :=
  if r = .ip then .error .instructionPointerMisuse else .ok answer

/-- The answer to a request for a byte register by its number. -/
def byNumber (index : UInt8) (answer : Register → Answer) : Except Fault Answer :=
  if index = 26 then .error .instructionPointerMisuse
  else if h : index < 28 then .ok (answer (.ofNumber index h))
  else .error (.invalidRegister index)

/-- The answer to a request after some others. -/
def expected (earlier : List Request) : Request → Except Fault Answer
  | .read r => byName r (.byte (lastByte earlier r))
  | .write r _ => byName r .done
  | .readIndexed index => byNumber index fun r => .byte (lastByte earlier r)
  | .writeIndexed index _ => byNumber index fun _ => .done
  | .ip => .ok (.word (pointer earlier))
  | .jump _ | .advance => .ok .done

/-- The answers to some requests after some others. -/
def predicted (earlier : List Request) : List Request → List (Except Fault Answer)
  | [] => []
  | q :: requests => expected earlier q :: predicted (q :: earlier) requests

/-- The results of some requests, one after another. -/
def results : RegisterFile → List Request → List (Except Fault Answer)
  | _, [] => []
  | f, q :: requests => ((serve q).run f).result :: results ((serve q).run f).state requests

section Views

variable {q : Request} {earlier : List Request} {r : Register}

theorem lastByte_cons : lastByte (q :: earlier) r = (q.stored? r).getD (lastByte earlier r) := by
  unfold lastByte
  rw [List.findSome?_cons]
  cases q.stored? r <;> rfl

theorem pointer_jump (target : InstructionAddress) :
    pointer (.jump target :: earlier) = target := by
  show Int64.ofInt (target.toInt + 0) = target
  rw [Int.add_zero, Int64.ofInt_toInt]

theorem pointer_advance : pointer (.advance :: earlier) = pointer earlier + 1 := by
  unfold pointer
  rw [List.findSome?_cons, List.takeWhile_cons]
  simp only [Request.target?, Option.isNone_none, if_true, List.count_cons_self]
  rw [Int.natCast_add, ← Int.add_assoc, Int64.ofInt_add]
  rfl

/-- A number below 28 is as good as the name of its register. -/
theorem byNumber_code (r : Register) (answer : Register → Answer) :
    byNumber r.code answer = byName r (answer r) := by
  by_cases byte : r = .ip
  · subst byte
    rfl
  · have other : r.code ≠ 26 := fun e => byte (Register.code_inj.mp e)
    unfold byNumber byName
    rw [if_neg other, dif_pos r.code_lt, Register.code_inj.mp (Register.code_ofNumber r.code_lt),
      if_neg byte]

theorem byNumber_of_le {index : UInt8} (h : 28 ≤ index) (answer : Register → Answer) :
    byNumber index answer = .error (.invalidRegister index) := by
  have bound : ¬ index < 28 := UInt8.not_lt.mpr h
  have other : index ≠ 26 := by
    rintro rfl
    exact bound (by decide)
  unfold byNumber
  rw [if_neg other, dif_neg bound]

end Views

/-! ## 3. Requests by number -/

theorem readIndexed_code (f : RegisterFile) (r : Register) : f.readIndexed r.code = f.read r := by
  rw [readIndexed, register_code]
  rfl

theorem writeIndexed_code (r : Register) (value : Byte) :
    writeIndexed r.code value = write r value :=
  Action.ext fun _ => query_bind_of_ok (register_code r)

theorem readIndexed_of_le {index : UInt8} (h : 28 ≤ index) (f : RegisterFile) :
    f.readIndexed index = .error (.invalidRegister index) := by
  rw [readIndexed, register_of_le h]
  rfl

theorem writeIndexed_of_le {index : UInt8} (h : 28 ≤ index) (value : Byte) (f : RegisterFile) :
    (writeIndexed index value).run f = ⟨.error (.invalidRegister index), f, []⟩ :=
  query_bind_of_error (register_of_le h)

/-- A number is that of a register, or it is 28 or more. -/
theorem code_or_le (index : UInt8) : (∃ r : Register, r.code = index) ∨ 28 ≤ index := by
  by_cases h : index < 28
  · exact .inl ⟨_, Register.code_ofNumber h⟩
  · exact .inr (UInt8.not_lt.mp h)

/-! ## 4. One request -/

theorem byte?_eq_some {f : RegisterFile} {r : Register} {value : Byte} :
    f.byte? r = some value ↔ f.read r = .ok value := by
  unfold byte?
  cases f.read r <;> simp [Except.toOption]

/-- The file holds what some requests, the latest first, make it hold. -/
structure Recalls (f : RegisterFile) (earlier : List Request) : Prop where
  byte : ∀ r, r ≠ .ip → f.byte? r = some (lastByte earlier r)
  ip : f.ip = pointer earlier

theorem recalls_zeroed : zeroed.Recalls [] where
  byte r byte := by
    obtain ⟨i, hi⟩ := exists_slot byte
    rw [byte?_of_slot hi]
    exact congrArg some (Vector.getElem_replicate i.isLt)
  ip := rfl

namespace Recalls

variable {f : RegisterFile} {earlier : List Request} {q : Request} {r : Register} {value : Byte}

/-- A request that stores no byte and does not move the instruction pointer changes nothing. -/
theorem of_keeping (h : f.Recalls earlier) (unstored : ∀ r, r ≠ .ip → q.stored? r = none)
    (still : pointer (q :: earlier) = pointer earlier) : f.Recalls (q :: earlier) where
  byte r byte := by rw [h.byte r byte, lastByte_cons, unstored r byte, Option.getD_none]
  ip := h.ip.trans still.symm

/-- A read gives the byte that was stored last. -/
theorem read_eq (h : f.Recalls earlier) (r : Register) :
    (f.read r).map Answer.byte = byName r (.byte (lastByte earlier r)) := by
  unfold byName
  by_cases byte : r = .ip
  · rw [if_pos byte, byte, read_ip]
    rfl
  · rw [if_neg byte, byte?_eq_some.mp (h.byte r byte)]
    rfl

/-- A write is recalled, whether it was asked for by name or by number. -/
theorem write_step (h : f.Recalls earlier) (r : Register) (value : Byte)
    (stores : ∀ s, q.stored? s = if r = s then some value else none)
    (still : pointer (q :: earlier) = pointer earlier) :
    ((serve (.write r value)).run f).result = byName r .done ∧
    ((serve (.write r value)).run f).state.Recalls (q :: earlier) := by
  rw [serve]
  by_cases byte : r = .ip
  · subst byte
    rw [bind_of_error (write_ip value f)]
    refine ⟨rfl, h.of_keeping (fun s hs => ?_) still⟩
    rw [stores, if_neg (Ne.symm hs)]
  · obtain ⟨i, hi⟩ := exists_slot byte
    have self := byte?_write_self byte value f
    have others := fun s hs => byte?_write_of_ne (r := r) (q := s) hs value f
    rw [write_of_slot hi] at self others
    rw [bind_of_silent (write_of_slot hi value f)]
    -- One entry of the array is replaced, so all other registers hold what they held.
    refine ⟨(if_neg byte).symm, fun s hs => ?_, ?_⟩
    · rw [lastByte_cons, stores]
      by_cases e : r = s
      · rw [if_pos e, ← e]
        exact self
      · rw [if_neg e]
        exact (others s (Ne.symm e)).trans (h.byte s hs)
    · exact h.ip.trans still.symm

/-- **A request is answered as the requests before it make one expect, and recalled.** -/
theorem step (h : f.Recalls earlier) (q : Request) :
    ((serve q).run f).result = expected earlier q ∧
    ((serve q).run f).state.Recalls (q :: earlier) := by
  -- `pointer` passes over every request but the last two by computation.
  cases q with
  | read r => exact ⟨h.read_eq r, h.of_keeping (fun _ _ => rfl) rfl⟩
  | write r value => exact h.write_step r value (fun _ => rfl) rfl
  | readIndexed index =>
    refine ⟨?_, h.of_keeping (fun _ _ => rfl) rfl⟩
    rw [serve, run_query, expected]
    rcases code_or_le index with ⟨r, rfl⟩ | unknown
    · rw [readIndexed_code, byNumber_code]
      exact h.read_eq r
    · rw [readIndexed_of_le unknown, byNumber_of_le unknown]
      rfl
  | writeIndexed index value =>
    rw [serve, expected]
    rcases code_or_le index with ⟨r, rfl⟩ | unknown
    · rw [writeIndexed_code, byNumber_code]
      exact h.write_step r value (fun s => by simp only [Request.stored?, Register.code_inj]) rfl
    · rw [bind_of_error (writeIndexed_of_le unknown value f), byNumber_of_le unknown]
      refine ⟨rfl, h.of_keeping (fun s _ => if_neg ?_) rfl⟩
      rintro rfl
      exact UInt8.not_lt.mpr unknown s.code_lt
  | ip =>
    exact ⟨congrArg (fun ip => Except.ok (Answer.word ip)) h.ip,
      h.of_keeping (fun _ _ => rfl) rfl⟩
  | jump target => exact ⟨rfl, h.byte, (pointer_jump target).symm⟩
  | advance => exact ⟨rfl, h.byte, (congrArg (· + 1) h.ip).trans pointer_advance.symm⟩

/-! ## 5. Whole runs -/

theorem results_eq (h : f.Recalls earlier) (requests : List Request) :
    f.results requests = predicted earlier requests := by
  induction requests generalizing f earlier with
  | nil => rfl
  | cons q requests ih =>
    obtain ⟨result, later⟩ := h.step q
    rw [results, predicted, result, ih later]

end Recalls

/-- A request that is refused leaves the file as it was. -/
theorem atomic_serve (q : Request) : Atomic (serve q) := by
  cases q with
  | read r => exact fun _ _ _ => rfl
  | readIndexed index => exact fun _ _ _ => rfl
  | write r value => exact (atomic_write r value).before_total fun _ _ _ => nofun
  | writeIndexed index value =>
    exact (atomic_writeIndexed index value).before_total fun _ _ _ => nofun
  | ip => exact fun _ _ => nofun
  | jump target => exact fun _ _ => nofun
  | advance => exact fun _ _ => nofun

/-- **The register file is twenty-seven independent bytes and a counter.** In every run from zeroed
    registers each request has the result that the requests before it make one expect. A request
    that is refused leaves the file as it was. Every other access to a byte is to the place of its
    register, and that is one of the twenty-seven places of the array. -/
theorem registers_recall :
    (∀ requests, zeroed.results requests = predicted [] requests) ∧
    (∀ f q fault, ((serve q).run f).result = .error fault → ((serve q).run f).state = f) ∧
    Register.bytes.length = 27 ∧
    ∀ r, r ≠ .ip → ∀ (f : RegisterFile) value, ∃ inside : r.place < Register.bytes.length,
      f.read r = .ok f.bytes[r.place] ∧
      (write r value).run f = ⟨.ok (), { f with bytes := f.bytes.set r.place value }, []⟩ :=
  ⟨recalls_zeroed.results_eq, fun f q => atomic_serve q f, Register.length_bytes,
    fun _ byte => access_at_place byte⟩

/-- It holds around the instruction pointer: its neighbours are told apart, it refuses a byte
    without any change and wraps around, and the register behind it is kept in the last place. -/
theorem registers_recall_around_pointer :
    zeroed.results [.write .ebd 1, .writeIndexed 27 2, .readIndexed 25, .read .lastIntr,
        .writeIndexed 26 3, .writeIndexed 28 4, .jump 9223372036854775807, .advance, .ip] =
      [.ok .done, .ok .done, .ok (.byte 1), .ok (.byte 2), .error .instructionPointerMisuse,
        .error (.invalidRegister 28), .ok .done, .ok .done,
        .ok (.word (-9223372036854775808))] ∧
    ((serve (.writeIndexed 26 3)).run zeroed).state = zeroed ∧
    (write .lastIntr 2).run zeroed =
      ⟨.ok (), { zeroed with bytes := zeroed.bytes.set 26 2 (by decide) }, []⟩ := by
  obtain ⟨runs, refused, _, places⟩ := registers_recall
  obtain ⟨_, _, written⟩ := places .lastIntr (by decide) zeroed 2
  exact ⟨(runs _).trans rfl, refused _ _ .instructionPointerMisuse rfl, written⟩

end RegisterFile

end ByteMachine
