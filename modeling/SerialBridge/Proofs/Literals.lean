import SerialBridge.Json.Reader
import SerialBridge.Json.Writer

/-! # Strings and numbers of a document

The smallest parts of a document are read back as they were written.

A string is written character by character: a quote, a backslash or a control character as an
escape, any other as itself.  Each of these is read back whatever was read before it
(`readStringFrom_writeChar`), so a string is, by induction on its characters
(`readString_writeString`).

A number has no end of its own: it ends where no digit, point or exponent follows.  What can
stand behind a value in a document never continues a number (`EndsValue`), and the digits of a
number of at most 64 bits are gathered without a loss (`gather_of_lt`), so an integer is read
back before anything that ends a value (`readNumber_toString`).
-/

namespace SerialBridge.Json

/-! ## Blanks -/

/-- Blanks, of which any number may stand between the parts of a document. -/
def Blanks (gap : List Char) : Prop :=
  ∀ c ∈ gap, isSpace c = true

theorem blanks_nil : Blanks [] :=
  List.forall_mem_nil _

theorem skipSpace_gap {gap : List Char} (h : Blanks gap) (cs : List Char) :
    skipSpace (gap ++ cs) = skipSpace cs :=
  List.dropWhile_append_of_pos h

theorem skipSpace_cons {c : Char} (h : isSpace c = false) (cs : List Char) :
    skipSpace (c :: cs) = c :: cs := by
  simp [skipSpace, h]

theorem skipSpace_gap_cons {gap : List Char} (h : Blanks gap) {c : Char} (hc : isSpace c = false)
    (cs : List Char) : skipSpace (gap ++ c :: cs) = c :: cs := by
  rw [skipSpace_gap h, skipSpace_cons hc]

/-- What may follow a value: nothing, or a character that no number goes on with. -/
def EndsValue (rest : List Char) : Prop :=
  ∀ c ∈ rest.head?, isSpace c = true ∨ c = ',' ∨ c = ']' ∨ c = '\x7d'

theorem endsValue_nil : EndsValue [] := by
  intro c hc
  cases hc

theorem endsValue_gap {gap rest : List Char} (hgap : Blanks gap) (h : EndsValue rest) :
    EndsValue (gap ++ rest) := by
  cases gap with
  | nil => exact h
  | cons c gap =>
    intro x hx
    cases hx
    exact .inl (hgap c List.mem_cons_self)

/-! ## Strings -/

theorem hexValue?_hexDigit : ∀ n < 16, hexValue? (hexDigit n) = some n := by
  decide

/-- The number of a control character stands for the character. -/
theorem completeHex_control {c : Char} (h : c.toNat < 0x20) :
    completeHex c.toNat none = .ok (.inl c) := by
  have hsecond : isSecondHalf c.toNat = false := by
    simp [isSecondHalf]
    omega
  have hfirst : isFirstHalf c.toNat = false := by
    simp [isFirstHalf]
    omega
  simp [completeHex, hsecond, hfirst]

/-- A control character is read back from the two digits of its number. -/
theorem readStringFrom_control {c : Char} (h : c.toNat < 0x20) (acc rest : List Char) :
    readStringFrom .plain acc
        ('\\' :: 'u' :: '0' :: '0' :: hexDigit (c.toNat / 16) :: hexDigit (c.toNat % 16) :: rest) =
      readStringFrom .plain (c :: acc) rest := by
  have hhigh := hexValue?_hexDigit (c.toNat / 16) (by omega)
  have hlow := hexValue?_hexDigit (c.toNat % 16) (by omega)
  have hzero : hexValue? '0' = some 0 := by decide
  have hvalue : c.toNat / 16 * 16 + c.toNat % 16 = c.toNat := by omega
  simp [readStringFrom, hzero, hhigh, hlow, hvalue, completeHex_control h]

/-- A written character is read back, whatever was read before it. -/
theorem readStringFrom_writeChar (c : Char) (acc rest : List Char) :
    readStringFrom .plain acc (writeChar c ++ rest) = readStringFrom .plain (c :: acc) rest := by
  unfold writeChar
  -- the characters with an escape of their own come first
  split
  · subst_vars
    rfl
  split
  · subst_vars
    rfl
  split
  · subst_vars
    rfl
  split
  · subst_vars
    rfl
  split
  · subst_vars
    rfl
  split
  · subst_vars
    rfl
  split
  · subst_vars
    rfl
  split
  · rename_i hcontrol
    exact readStringFrom_control hcontrol acc rest
  · rename_i hquote hslash _ _ _ _ _ hcontrol
    simp [readStringFrom, hquote, hslash, hcontrol]

theorem writeString_append (s : String) (rest : List Char) :
    writeString s ++ rest = '"' :: (s.toList.flatMap writeChar ++ '"' :: rest) := by
  simp [writeString]

/-- **A written string is read back.** -/
theorem readString_writeString (s : String) (rest : List Char) :
    readString (s.toList.flatMap writeChar ++ '"' :: rest) = .ok (s, rest) := by
  have hchars : ∀ cs acc : List Char,
      readStringFrom .plain acc (cs.flatMap writeChar ++ '"' :: rest) =
        .ok (String.ofList (acc.reverse ++ cs), rest) := by
    intro cs
    induction cs with
    | nil =>
      intro acc
      rw [List.append_nil]
      rfl
    | cons c cs ih =>
      intro acc
      rw [List.flatMap_cons, List.append_assoc, readStringFrom_writeChar, ih, List.reverse_cons,
        List.append_assoc, List.singleton_append]
  rw [readString, hchars, List.reverse_nil, List.nil_append, String.ofList_toList]

/-! ## Numbers -/

theorem isDigit_of_mem_toDigits {n : Nat} {c : Char} (h : c ∈ Nat.toDigits 10 n) :
    isDigit c = true := by
  have hdigit := Nat.isDigit_of_mem_toDigits (by decide) (by decide) h
  simp only [Char.isDigit, isDigit, Bool.and_eq_true, decide_eq_true_eq] at hdigit ⊢
  exact hdigit

theorem digitChar_ne_zero : ∀ d < 10, 0 < d → Nat.digitChar d ≠ '0' := by
  decide

/-- Only the number zero is written with a zero in front. -/
theorem toDigits_ne_zero_cons {n : Nat} (h : 0 < n) (ds : List Char) :
    Nat.toDigits 10 n ≠ '0' :: ds := by
  induction n using Nat.strongRecOn generalizing ds with
  | ind n ih =>
    by_cases hn : n < 10
    · rw [Nat.toDigits_of_lt_base hn]
      intro heq
      injection heq with hchar
      exact digitChar_ne_zero n hn h hchar
    · rw [Nat.toDigits_of_base_le (by decide) (by omega)]
      obtain ⟨d, front, hfront⟩ :=
        List.exists_cons_of_ne_nil (Nat.toDigits_ne_nil (n := n / 10) (b := 10))
      rw [hfront]
      intro heq
      injection heq with hd
      exact ih (n / 10) (by omega) (by omega) front (by rw [hfront, hd])

theorem le_ofDigitChars (ds : List Char) (n : Nat) : n ≤ Nat.ofDigitChars 10 ds n := by
  rw [Nat.ofDigitChars_eq_ofDigitChars_zero]
  have := Nat.le_mul_of_pos_left n (Nat.pow_pos (n := ds.length) (show 0 < 10 by decide))
  omega

/-- Digits of a number below `2^64` are all gathered. -/
theorem gather_of_lt {ds : List Char} {n : Nat} (h : Nat.ofDigitChars 10 ds n < UInt64.size)
    (taken : Nat) : gather n taken ds = (Nat.ofDigitChars 10 ds n, taken + ds.length, []) := by
  induction ds generalizing n taken with
  | nil => rfl
  | cons d ds ih =>
    rw [Nat.ofDigitChars_cons] at h ⊢
    have hnext : n * 10 + digitValue d = 10 * n + (d.toNat - '0'.toNat) := by
      rw [Nat.mul_comm, digitValue]
    have hlt := Nat.lt_of_le_of_lt (le_ofDigitChars ds _) h
    rw [gather, hnext, if_pos hlt, ih h, List.length_cons]
    simp
    omega

theorem takeDigits_append {ds rest : List Char} (hds : ∀ c ∈ ds, isDigit c = true)
    (hrest : ∀ c ∈ rest.head?, isDigit c = false) : takeDigits (ds ++ rest) = (ds, rest) := by
  rw [takeDigits, List.takeWhile_append_of_pos hds, List.dropWhile_append_of_pos hds]
  cases rest with
  | nil => simp
  | cons c rest => simp [hrest c rfl]

/-- Behind a number stands nothing that continues it. -/
theorem EndsValue.head {rest : List Char} (h : EndsValue rest) {c : Char} (hc : c ∈ rest.head?) :
    isDigit c = false ∧ c ≠ '.' ∧ c ≠ 'e' ∧ c ≠ 'E' := by
  rcases h c hc with hspace | rfl | rfl | rfl
  · simp only [isSpace, Bool.or_eq_true, beq_iff_eq] at hspace
    rcases hspace with ((rfl | rfl) | rfl) | rfl <;> decide
  · decide
  · decide
  · decide

/-- **The digits of a number below `2^64` are read as that number.** -/
theorem readUnsigned_toDigits {n : Nat} (hn : n < UInt64.size) (negative : Bool) {rest : List Char}
    (hrest : EndsValue rest) :
    readUnsigned negative (Nat.toDigits 10 n ++ rest) = .ok (wholeNumber negative n, rest) := by
  have htake : takeDigits (Nat.toDigits 10 n ++ rest) = (Nat.toDigits 10 n, rest) :=
    takeDigits_append (fun c hc => isDigit_of_mem_toDigits hc) fun c hc => (hrest.head hc).1
  have hgather : gather 0 0 (Nat.toDigits 10 n) = (n, (Nat.toDigits 10 n).length, []) := by
    rw [gather_of_lt (by rwa [Nat.ofDigitChars_ten_toDigits]), Nat.ofDigitChars_ten_toDigits,
      Nat.zero_add]
  rw [readUnsigned, htake]
  split
  · rename_i heq
    exact absurd (Prod.mk.inj heq).1 Nat.toDigits_ne_nil
  · rename_i heq
    exact absurd (Prod.mk.inj heq).1 Nat.toDigits_ne_nil
  · rename_i second more _ heq
    have hdigits := (Prod.mk.inj heq).1
    rcases Nat.eq_zero_or_pos n with rfl | hpos
    · simp at hdigits
    · exact absurd hdigits (toDigits_ne_zero_cons hpos _)
  · rename_i heq
    obtain ⟨rfl, rfl⟩ := Prod.mk.inj heq
    rw [hgather]
    cases rest with
    | nil => rfl
    | cons c rest =>
      obtain ⟨-, hpoint, he, hE⟩ := hrest.head (c := c) rfl
      simp [hpoint, he, hE]

/-- The integers that a document can hold: those of 64 bits, with or without a sign. -/
def IsWord (n : Int) : Prop :=
  -9223372036854775808 ≤ n ∧ n < 18446744073709551616

theorem toList_toString_of_nonneg {n : Int} (h : 0 ≤ n) :
    (toString n).toList = Nat.toDigits 10 n.toNat := by
  rw [Int.toString_eq_repr, Int.repr_eq_if, if_pos h, Nat.repr_eq_ofList_toDigits,
    String.toList_ofList]

theorem toList_toString_of_neg {n : Int} (h : n < 0) :
    (toString n).toList = '-' :: Nat.toDigits 10 (-n).toNat := by
  rw [Int.toString_eq_repr, Int.repr_eq_if, if_neg (Int.not_le.mpr h), String.toList_append,
    Nat.repr_eq_ofList_toDigits]
  simp

/-- A number starts with a digit or its sign. -/
theorem exists_toString_eq (n : Int) :
    ∃ c cs, (toString n).toList = c :: cs ∧ startsNumber c = true := by
  by_cases h : 0 ≤ n
  · obtain ⟨c, cs, hcs⟩ := List.exists_cons_of_ne_nil (Nat.toDigits_ne_nil (b := 10) (n := n.toNat))
    have hdigit := isDigit_of_mem_toDigits (hcs ▸ List.mem_cons_self)
    exact ⟨c, cs, (toList_toString_of_nonneg h).trans hcs, by simp [startsNumber, hdigit]⟩
  · exact ⟨'-', _, toList_toString_of_neg (Int.not_le.mp h), rfl⟩

/-- **A written integer is read back.** -/
theorem readNumber_toString {n : Int} (hn : IsWord n) {rest : List Char} (hrest : EndsValue rest) :
    readNumber ((toString n).toList ++ rest) = .ok (.integer n, rest) := by
  have hsize : UInt64.size = 18446744073709551616 := rfl
  obtain ⟨hlow, hhigh⟩ := hn
  by_cases h : 0 ≤ n
  · rw [toList_toString_of_nonneg h]
    have hread := readUnsigned_toDigits (n := n.toNat) (by omega) false hrest
    have hwhole : wholeNumber false n.toNat = .integer n := by
      have hback : ((n.toNat : Nat) : Int) = n := by omega
      rw [wholeNumber, if_pos (by decide), hback]
    rw [hwhole] at hread
    rw [readNumber]
    · exact hread
    -- a digit is no sign
    · intro cs hcs
      obtain ⟨c, more, hmore⟩ :=
        List.exists_cons_of_ne_nil (Nat.toDigits_ne_nil (b := 10) (n := n.toNat))
      have hdigit := isDigit_of_mem_toDigits (hmore ▸ List.mem_cons_self)
      rw [hmore] at hcs
      injection hcs with hc
      rw [hc] at hdigit
      exact absurd hdigit (by decide)
  · rw [toList_toString_of_neg (Int.not_le.mp h)]
    have hwhole : wholeNumber true (-n).toNat = .integer n := by
      have hne : ¬((-n).toNat = 0 ∨ UInt64.size < 2 * (-n).toNat) := by omega
      have hback : -(((-n).toNat : Nat) : Int) = n := by omega
      rw [wholeNumber, if_neg (by decide), if_neg hne, hback]
    rw [← hwhole]
    exact readUnsigned_toDigits (by omega) true hrest

end SerialBridge.Json
