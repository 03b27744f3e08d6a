import ByteMachine.Text.Decimal
import ByteMachine.Text.Grid

/-!
# Reading texts back

What the pieces of a text can be told apart by.

* `append_cons_inj`: characters of one class, up to the first that is not of it;
  `append_cons_inj_last`: anything at all, up to the last occurrence of a character.
* `decimal_append_inj`, `decimal_words_inj`: a number, up to the first character that cannot belong
  to it, or up to words that start with such a one.
* `enclosed_inj`: anything at all between the same words.
* `unlines_inj`: the lines of a text, if none of them holds a line break; `splitOn_unlines`: they
  are what lies between the line breaks.
* `fill_left_inj`, `fill_right_inj`: a line that was filled up with blanks, if it ends or starts
  with something else (`EndsVisible`, `StartsVisible`).
-/

namespace ByteMachine.Text

/-! ## 1. Up to a character of another class -/

theorem append_cons_inj {p : Char → Prop} {xs ys r s : List Char} {c d : Char}
    (hx : ∀ x ∈ xs, p x) (hy : ∀ y ∈ ys, p y) (hc : ¬ p c) (hd : ¬ p d)
    (h : xs ++ c :: r = ys ++ d :: s) : xs = ys ∧ c = d ∧ r = s := by
  induction xs generalizing ys with
  | nil =>
    cases ys with
    | nil =>
      obtain ⟨same, rest⟩ := List.cons.inj h
      exact ⟨rfl, same, rest⟩
    | cons y ys =>
      obtain ⟨rfl, _⟩ := List.cons.inj h
      exact absurd (hy c List.mem_cons_self) hc
  | cons x xs ih =>
    cases ys with
    | nil =>
      obtain ⟨rfl, _⟩ := List.cons.inj h
      exact absurd (hx x List.mem_cons_self) hd
    | cons y ys =>
      obtain ⟨rfl, rest⟩ := List.cons.inj h
      obtain ⟨same, others⟩ := ih (fun z hz => hx z (List.mem_cons_of_mem x hz))
        (fun z hz => hy z (List.mem_cons_of_mem x hz)) rest
      exact ⟨congrArg (x :: ·) same, others⟩

/-- What stands before the last occurrence of a character may be anything, that character
    included. -/
theorem append_cons_inj_last {xs ys r s : List Char} {c : Char} (hr : c ∉ r) (hs : c ∉ s)
    (h : xs ++ c :: r = ys ++ c :: s) : xs = ys ∧ r = s := by
  -- Read from the end, it is the first occurrence.
  have mirrored := congrArg List.reverse h
  simp only [List.reverse_append, List.reverse_cons, List.append_assoc, List.singleton_append]
    at mirrored
  have other : ∀ {l : List Char}, c ∉ l → ∀ x ∈ l.reverse, x ≠ c := by
    intro l hl x hx e
    exact hl (e ▸ List.mem_reverse.mp hx)
  obtain ⟨tail, _, front⟩ := append_cons_inj (p := (· ≠ c)) (other hr) (other hs)
    (fun h => h rfl) (fun h => h rfl) mirrored
  exact ⟨List.reverse_inj.mp front, List.reverse_inj.mp tail⟩

/-- A number ends where something else than a digit or a minus sign follows. -/
theorem decimal_append_inj {m n : Int} {r s : List Char} {c d : Char}
    (hc : ¬ (c.isDigit ∨ c = '-')) (hd : ¬ (d.isDigit ∨ d = '-'))
    (h : decimalChars m ++ c :: r = decimalChars n ++ d :: s) : m = n ∧ c = d ∧ r = s := by
  obtain ⟨digits, rest⟩ := append_cons_inj (fun _ => mem_decimalChars) (fun _ => mem_decimalChars)
    hc hd h
  exact ⟨decimalChars_inj digits, rest⟩

/-- A number ends where words follow that start with something else than a digit or a minus sign. -/
theorem decimal_words_inj {m n : Int} {words r s : String} {c : Char} {rest : List Char}
    (start : words.toList = c :: rest) (hc : ¬ (c.isDigit ∨ c = '-'))
    (h : decimal m ++ (words ++ r) = decimal n ++ (words ++ s)) : m = n ∧ r = s := by
  have chars := congrArg String.toList h
  simp only [String.toList_append, toList_decimal, start, List.cons_append] at chars
  obtain ⟨number, _, behind⟩ := decimal_append_inj hc hc chars
  exact ⟨number, String.toList_inj.mp (List.append_cancel_left behind)⟩

/-- What stands between the same words is the same, even if it repeats them. -/
theorem enclosed_inj {before behind x y : String}
    (h : before ++ x ++ behind = before ++ y ++ behind) : x = y := by
  have front : before ++ x = before ++ y := (String.append_left_inj behind).mp h
  exact (String.append_right_inj before).mp front

/-! ## 2. Lines -/

theorem toList_unlines (lines : List Line) :
    (unlines lines).toList = lines.flatMap (· ++ ['\n']) := by
  simp [unlines]

/-- **Lines without line breaks are read back from their text.** -/
theorem unlines_inj {xs ys : List Line} (hx : ∀ l ∈ xs, '\n' ∉ l) (hy : ∀ l ∈ ys, '\n' ∉ l)
    (h : unlines xs = unlines ys) : xs = ys := by
  have chars := congrArg String.toList h
  rw [toList_unlines, toList_unlines] at chars
  clear h
  induction xs generalizing ys with
  | nil =>
    cases ys with
    | nil => rfl
    | cons y ys => simp at chars
  | cons x xs ih =>
    cases ys with
    | nil => simp at chars
    | cons y ys =>
      simp only [List.flatMap_cons, List.append_assoc, List.singleton_append] at chars
      obtain ⟨first, _, rest⟩ := append_cons_inj (p := (· ≠ '\n'))
        (fun c hc e => hx x List.mem_cons_self (e ▸ hc))
        (fun c hc e => hy y List.mem_cons_self (e ▸ hc)) (fun h => h rfl) (fun h => h rfl) chars
      have others := ih (fun l hl => hx l (List.mem_cons_of_mem x hl))
        (fun l hl => hy l (List.mem_cons_of_mem y hl)) rest
      rw [first, others]

/-- Splitting a text at its line breaks gives its lines, and nothing behind the last one. -/
theorem splitOn_unlines {lines : List Line} (h : ∀ l ∈ lines, '\n' ∉ l) :
    (unlines lines).toList.splitOn '\n' = lines ++ [[]] := by
  have joined : (unlines lines).toList = ['\n'].intercalate (lines ++ [[]]) := by
    rw [toList_unlines]
    induction lines with
    | nil => rfl
    | cons line lines ih =>
      rw [List.flatMap_cons, ih fun l hl => h l (List.mem_cons_of_mem line hl)]
      cases lines <;> simp [List.intercalate]
  rw [joined]
  refine List.splitOn_intercalate _ (fun l hl => ?_) (by simp)
  rcases List.mem_append.mp hl with hl | hl
  · exact h l hl
  · rw [List.mem_singleton.mp hl]
    exact List.not_mem_nil

theorem getLast?_unlines {lines : List Line} (h : lines ≠ []) :
    (unlines lines).toList.getLast? = some '\n' := by
  rw [toList_unlines, ← List.dropLast_concat_getLast h, List.flatMap_append]
  simp

/-! ## 3. Blanks around a line -/

/-- The line starts with something else than a blank. -/
def StartsVisible (line : Line) : Prop := ∃ c rest, line = c :: rest ∧ c ≠ ' '

/-- The line ends with something else than a blank. -/
def EndsVisible (line : Line) : Prop := ∃ rest c, line = rest ++ [c] ∧ c ≠ ' '

theorem StartsVisible.append {line : Line} (h : StartsVisible line) (more : Line) :
    StartsVisible (line ++ more) := by
  obtain ⟨c, rest, rfl, visible⟩ := h
  exact ⟨c, rest ++ more, rfl, visible⟩

theorem EndsVisible.append {line : Line} (h : EndsVisible line) (before : Line) :
    EndsVisible (before ++ line) := by
  obtain ⟨rest, c, rfl, visible⟩ := h
  exact ⟨before ++ rest, c, (List.append_assoc _ _ _).symm, visible⟩

theorem startsVisible_of_not_mem {line : Line} (filled : line ≠ []) (h : ' ' ∉ line) :
    StartsVisible line := by
  cases line with
  | nil => exact absurd rfl filled
  | cons c rest => exact ⟨c, rest, rfl, fun e => h (e ▸ List.mem_cons_self)⟩

theorem endsVisible_of_not_mem {line : Line} (filled : line ≠ []) (h : ' ' ∉ line) :
    EndsVisible line :=
  ⟨line.dropLast, line.getLast filled, (List.dropLast_concat_getLast filled).symm,
    fun e => h (e ▸ List.getLast_mem filled)⟩

theorem fill_right_inj {width : Nat} {x y : Line} (hx : StartsVisible x) (hy : StartsVisible y)
    (h : fill .right width x = fill .right width y) : x = y := by
  obtain ⟨c, r, rfl, hc⟩ := hx
  obtain ⟨d, s, rfl, hd⟩ := hy
  obtain ⟨_, rfl, rfl⟩ := append_cons_inj (p := (· = ' ')) (fun _ => List.eq_of_mem_replicate)
    (fun _ => List.eq_of_mem_replicate) hc hd h
  rfl

theorem fill_left_inj {width : Nat} {x y : Line} (hx : EndsVisible x) (hy : EndsVisible y)
    (h : fill .left width x = fill .left width y) : x = y := by
  obtain ⟨r, c, rfl, hc⟩ := hx
  obtain ⟨s, d, rfl, hd⟩ := hy
  -- Read from the end, the blanks come first.
  have mirrored := congrArg List.reverse h
  simp only [fill, List.reverse_append, List.reverse_replicate, List.reverse_singleton,
    List.singleton_append] at mirrored
  obtain ⟨_, rfl, same⟩ := append_cons_inj (p := (· = ' ')) (fun _ => List.eq_of_mem_replicate)
    (fun _ => List.eq_of_mem_replicate) hc hd mirrored
  rw [List.reverse_inj.mp same]

theorem mem_fill {align : Align} {width : Nat} {line : Line} {c : Char} :
    c ∈ fill align width line ↔ c ∈ line ∨ line.length < width ∧ c = ' ' := by
  cases align <;> simp [fill, Nat.sub_eq_zero_iff_le, or_comm]

theorem fill_nil (align : Align) (width : Nat) :
    fill align width [] = List.replicate width ' ' := by
  cases align <;> simp [fill]

/-- A line with something else than blanks is not blank after filling it up either. -/
theorem fill_ne_fill_nil {align : Align} {width : Nat} {line : Line} {c : Char} (h : c ∈ line)
    (visible : c ≠ ' ') : fill align width line ≠ fill align width [] := fun blank => by
  have there : c ∈ fill align width line := mem_fill.mpr (.inl h)
  rw [blank, fill_nil] at there
  exact visible (List.eq_of_mem_replicate there)

/-! ## 4. Characters of numbers -/

theorem not_mem_decimalChars {n : Int} {c : Char} (h : ¬ (c.isDigit ∨ c = '-')) :
    c ∉ decimalChars n :=
  fun there => h (mem_decimalChars there)

theorem newline_not_mem_decimal (n : Int) : '\n' ∉ decimalChars n :=
  not_mem_decimalChars (by decide)

theorem bracket_not_mem_decimal (n : Int) : '(' ∉ decimalChars n :=
  not_mem_decimalChars (by decide)

theorem startsVisible_decimal (n : Int) : StartsVisible (decimalChars n) :=
  startsVisible_of_not_mem (decimalChars_ne_nil n) (not_mem_decimalChars (by decide))

theorem endsVisible_decimal (n : Int) : EndsVisible (decimalChars n) :=
  endsVisible_of_not_mem (decimalChars_ne_nil n) (not_mem_decimalChars (by decide))

/-- The characters of a byte are its digits and the mark in front of them. -/
theorem mem_hexByteChars {b : UInt8} {c : Char} (h : c ∈ hexByteChars b) :
    c.isAlphanum = true := by
  have digit : ∀ n < 16, (Nat.digitChar n).isAlphanum = true := by decide
  have bound := b.toNat_lt
  simp only [hexByteChars, List.mem_cons, List.not_mem_nil, or_false] at h
  rcases h with rfl | rfl | rfl | rfl
  · decide
  · decide
  · exact digit _ (by omega)
  · exact digit _ (by omega)

theorem not_mem_hexByteChars {b : UInt8} {c : Char} (h : ¬ c.isAlphanum = true) :
    c ∉ hexByteChars b :=
  fun there => h (mem_hexByteChars there)

theorem newline_not_mem_hexByte (b : UInt8) : '\n' ∉ hexByteChars b :=
  not_mem_hexByteChars (by decide)

theorem bracket_not_mem_hexByte (b : UInt8) : '(' ∉ hexByteChars b :=
  not_mem_hexByteChars (by decide)

theorem endsVisible_hexByte (b : UInt8) : EndsVisible (hexByteChars b) :=
  endsVisible_of_not_mem (List.cons_ne_nil _ _) (not_mem_hexByteChars (by decide))

end ByteMachine.Text
