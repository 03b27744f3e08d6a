/-!
# Numbers as text

The two spellings of numbers that every message and table of this library uses:

* `decimal`: a whole number in base ten, with a minus sign in front if it is negative and no
  superfluous zero;
* `hexByte`: a byte as `0x` and exactly two lower-case digits.

Both can be read back, so a text determines its number (`decimal_inj`, `hexByte_inj`); and a
decimal text holds nothing but digits and the minus sign (`mem_decimalChars`), so any other
character ends it.
-/

namespace ByteMachine.Text

/-! ## 1. Base ten -/

/-- The characters of a whole number: the digits of its magnitude, after a minus sign if it is
    negative. -/
def decimalChars : Int → List Char
  | .ofNat n => Nat.toDigits 10 n
  | .negSucc n => '-' :: Nat.toDigits 10 (n + 1)

/-- A whole number in base ten. -/
def decimal (n : Int) : String := String.ofList (decimalChars n)

/-- A natural number in base ten. -/
def decimalNat (n : Nat) : String := decimal n

@[simp] theorem toList_decimal (n : Int) : (decimal n).toList = decimalChars n := by
  simp [decimal]

@[simp] theorem toList_decimalNat (n : Nat) : (decimalNat n).toList = Nat.toDigits 10 n := by
  simp [decimalNat, decimalChars]

theorem decimalChars_ne_nil (n : Int) : decimalChars n ≠ [] := by
  cases n <;> simp [decimalChars]

/-- A decimal text holds digits and the minus sign only. -/
theorem mem_decimalChars {n : Int} {c : Char} (h : c ∈ decimalChars n) : c.isDigit ∨ c = '-' := by
  cases n with
  | ofNat n => exact .inl (Nat.isDigit_of_mem_toDigits (by decide) (by decide) h)
  | negSucc n =>
    rcases List.mem_cons.mp h with rfl | h
    · exact .inr rfl
    · exact .inl (Nat.isDigit_of_mem_toDigits (by decide) (by decide) h)

/-- The digits of a natural number can be read back. -/
theorem toDigits_inj {m n : Nat} (h : Nat.toDigits 10 m = Nat.toDigits 10 n) : m = n := by
  have := congrArg (fun ds => Nat.ofDigitChars 10 ds 0) h
  simpa using this

theorem minus_not_mem_toDigits (n : Nat) : '-' ∉ Nat.toDigits 10 n := fun h => by
  have := Nat.isDigit_of_mem_toDigits (by decide) (by decide) h
  simp at this

/-- A natural number's digits never start with a minus sign. -/
theorem toDigits_ne_minus_cons (n : Nat) (cs : List Char) : Nat.toDigits 10 n ≠ '-' :: cs :=
  fun h => minus_not_mem_toDigits n (h.symm ▸ List.mem_cons_self)

theorem decimalChars_inj : {m n : Int} → decimalChars m = decimalChars n → m = n
  | .ofNat _, .ofNat _, h => congrArg Int.ofNat (toDigits_inj h)
  | .ofNat _, .negSucc _, h => absurd h (toDigits_ne_minus_cons _ _)
  | .negSucc _, .ofNat _, h => absurd h.symm (toDigits_ne_minus_cons _ _)
  | .negSucc _, .negSucc _, h =>
    congrArg Int.negSucc (Nat.succ.inj (toDigits_inj (List.cons.inj h).2))

/-- **A decimal text determines its number.** -/
theorem decimal_inj {m n : Int} (h : decimal m = decimal n) : m = n :=
  decimalChars_inj (by simpa using congrArg String.toList h)

/-! ## 2. Bytes in base sixteen -/

/-- The characters of a byte: `0x` and two hexadecimal digits. -/
def hexByteChars (b : UInt8) : List Char :=
  ['0', 'x', Nat.digitChar (b.toNat / 16), Nat.digitChar (b.toNat % 16)]

/-- A byte as `0x` and exactly two lower-case hexadecimal digits. -/
def hexByte (b : UInt8) : String := String.ofList (hexByteChars b)

@[simp] theorem toList_hexByte (b : UInt8) : (hexByte b).toList = hexByteChars b := by
  simp [hexByte]

/-- Hexadecimal digits are told apart by their characters. -/
theorem digitChar_inj {m n : Nat} (hm : m < 16) (hn : n < 16)
    (h : Nat.digitChar m = Nat.digitChar n) : m = n := by
  have all : ∀ m < 16, ∀ n < 16, Nat.digitChar m = Nat.digitChar n → m = n := by decide
  exact all m hm n hn h

theorem hexByteChars_inj {a b : UInt8} (h : hexByteChars a = hexByteChars b) : a = b := by
  have ha := a.toNat_lt
  have hb := b.toNat_lt
  simp only [hexByteChars, List.cons.injEq, true_and, and_true] at h
  have high := digitChar_inj (by omega) (by omega) h.1
  have low := digitChar_inj (by omega) (by omega) h.2
  exact UInt8.toNat_inj.mp (by omega)

/-- **A hexadecimal text determines its byte.** -/
theorem hexByte_inj {a b : UInt8} (h : hexByte a = hexByte b) : a = b :=
  hexByteChars_inj (by simpa using congrArg String.toList h)

end ByteMachine.Text
