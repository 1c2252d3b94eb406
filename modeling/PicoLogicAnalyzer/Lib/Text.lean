import Mathlib.Data.Nat.Digits.Defs
import Mathlib.Tactic.IntervalCases
import Mathlib.Tactic.Ring

/-
  Byte texts and the scanning of unsigned numbers.

  `sscanfUnsigned` is `sscanf` for a format made of literal
  text, white space and one unsigned conversion, with the
  32-bit `strtoul` rules for signs and overflow.

  Key definitions include:
    * `Text.ascii`
    * `Text.digitsText`
    * `Text.strtoulValue`
    * `Text.scanUnsigned`
    * `Text.sscanfUnsigned`

  Printing and scanning are connected by:
    * `Text.scanUnsigned_padded`
    * `Text.scanUnsigned_digitsText`
    * `Text.sscanfUnsigned_append`
-/

------------------------------------------------------------
-- Byte Texts
------------------------------------------------------------

namespace Text

/- The byte of a character of the ASCII range. -/
def charByte (c : Char) : UInt8 :=
  UInt8.ofNat c.toNat

/- The bytes of an ASCII text. -/
def ascii (text : String) : List UInt8 :=
  text.toList.map charByte

theorem ascii_append (text text' : String) :
    ascii (text ++ text') = ascii text ++ ascii text' := by
  simp [ascii]

/- White space of the C locale. -/
def isSpace (b : UInt8) : Bool :=
  b == 32 || (9 ≤ b && b ≤ 13)

/- The digit in `base` a byte stands for. -/
def digitValue
    (base : Nat)
    (b : UInt8) :
    Option Nat :=
  let value :=
    if 48 ≤ b.toNat ∧ b.toNat ≤ 57 then b.toNat - 48
    else if 97 ≤ b.toNat ∧ b.toNat ≤ 122 then b.toNat - 87
    else if 65 ≤ b.toNat ∧ b.toNat ≤ 90 then b.toNat - 55
    else base
  if value < base then some value else none

/- The longest initial run of digits. -/
def readDigits (base : Nat) : List UInt8 → List Nat
| [] => []
| b :: bs =>
    match digitValue base b with
    | some value => value :: readDigits base bs
    | none => []

/- The number written by digits, most significant first. -/
def digitsValue (base : Nat) (digits : List Nat) : Nat :=
  digits.foldl (fun value digit => value * base + digit) 0

/-
  The prefix of a hexadecimal number is optional. Without a
  digit behind it, the number is the leading zero.
-/
def skipHexMark
    (base : Nat)
    (input : List UInt8) :
    List UInt8 :=
  match input with
  | 48 :: x :: b :: bs =>
      if base = 16 ∧ (x = 120 ∨ x = 88) ∧
          (digitValue 16 b).isSome then
        b :: bs
      else
        input
  | _ => input

/- The digits of an unsigned conversion: at least one. -/
def scanMagnitude
    (base : Nat)
    (input : List UInt8) :
    Option Nat :=
  match readDigits base (skipHexMark base input) with
  | [] => none
  | digits => some (digitsValue base digits)

/-
  The word a sign and a magnitude stand for. A magnitude
  that does not fit gives the largest word whatever its
  sign; one that fits is negated modulo the word.
-/
def strtoulValue
    (negative : Bool)
    (magnitude : Nat) :
    Nat :=
  if 2 ^ 32 ≤ magnitude then 2 ^ 32 - 1
  else if negative then (2 ^ 32 - magnitude) % 2 ^ 32
  else magnitude

/-
  An unsigned conversion after white space: an optional sign
  and digits.
-/
def scanUnsigned
    (base : Nat)
    (input : List UInt8) :
    Option Nat :=
  match input.dropWhile isSpace with
  | 43 :: bs =>
      (scanMagnitude base bs).map (strtoulValue false)
  | 45 :: bs =>
      (scanMagnitude base bs).map (strtoulValue true)
  | bs => (scanMagnitude base bs).map (strtoulValue false)

/- Remove a literal text from the front of an input. -/
def stripLiteral :
    List UInt8 → List UInt8 → Option (List UInt8)
| [], input => some input
| _ :: _, [] => none
| c :: cs, b :: bs =>
    if c = b then stripLiteral cs bs else none

/- `sscanf` with format `literal %lu` or `literal %lx`. -/
def sscanfUnsigned
    (literal : String)
    (base : Nat)
    (input : List UInt8) :
    Option Nat :=
  (stripLiteral (ascii literal) input).bind
    (scanUnsigned base)

end Text

------------------------------------------------------------
-- Printing
------------------------------------------------------------

namespace Text

/- A number printed in `base` with lower-case digits. -/
def digitsText (base n : Nat) : List UInt8 :=
  (Nat.toDigits base n).map charByte

/- The byte that prints one digit. -/
def digitByte (digit : Nat) : UInt8 :=
  charByte (Nat.digitChar digit)

theorem digitValue_digitByte
    {base digit : Nat}
    (hBase : base ≤ 16)
    (hDigit : digit < base) :
    digitValue base (digitByte digit) = some digit := by
  have hSmall : digit < 16 := by omega
  have hByte :
      (digit < 10 ∧ (digitByte digit).toNat = digit + 48) ∨
        (10 ≤ digit ∧
          (digitByte digit).toNat = digit + 87) := by
    interval_cases digit <;> decide
  unfold digitValue
  rcases hByte with ⟨hTen, hByte⟩ | ⟨hTen, hByte⟩
  · have hRange : 48 ≤ digit + 48 ∧ digit + 48 ≤ 57 := by
      omega
    simp [hByte, hRange, hDigit]
  · have hLetter : 97 ≤ digit + 87 ∧ digit + 87 ≤ 122 := by
      omega
    simp [hByte, hLetter, hDigit]

/- Printed digits are read back as they were written. -/
theorem readDigits_map_digitByte
    {base : Nat}
    (hBase : base ≤ 16)
    (digits : List Nat)
    (hDigits : ∀ digit ∈ digits, digit < base) :
    readDigits base (digits.map digitByte) = digits := by
  induction digits with
  | nil => rfl
  | cons digit digits ih =>
      have hHead :=
        digitValue_digitByte hBase
          (hDigits digit (List.mem_cons_self ..))
      have hTail :=
        ih (fun d hMember =>
          hDigits d (List.mem_cons_of_mem digit hMember))
      simp [readDigits, hHead, hTail]

/-
  A printed number is a non-empty list of digits with that
  value.
-/
theorem digitsText_eq
    {base : Nat}
    (hBase : 1 < base)
    (n : Nat) :
    ∃ digits : List Nat,
      digits ≠ [] ∧ (∀ digit ∈ digits, digit < base) ∧
        digitsText base n = digits.map digitByte ∧
        digitsValue base digits = n := by
  induction n using Nat.strong_induction_on with
  | _ n ih =>
      by_cases hSmall : n < base
      · refine ⟨[n], by simp, by simpa using hSmall, ?_, ?_⟩
        · simp [digitsText, digitByte,
            Nat.toDigits_of_lt_base hSmall]
        · simp [digitsValue]
      · have hLess : n / base < n :=
          Nat.div_lt_self (by omega) hBase
        rcases ih (n / base) hLess with
          ⟨digits, _, hDigits, hText, hValue⟩
        refine ⟨digits ++ [n % base], by simp, ?_, ?_, ?_⟩
        · intro digit hMember
          rcases List.mem_append.mp hMember with hOld | hNew
          · exact hDigits digit hOld
          · rw [List.mem_singleton.mp hNew]
            exact Nat.mod_lt n (by omega)
        · have hSplit :=
            Nat.toDigits_of_base_le hBase (by omega : base ≤ n)
          unfold digitsText at hText ⊢
          rw [hSplit, List.map_append, hText]
          simp [digitByte]
        · unfold digitsValue at hValue ⊢
          rw [List.foldl_append, hValue]
          simp only [List.foldl_cons, List.foldl_nil]
          exact Nat.div_add_mod' n base

/- A digit is neither white space, a sign nor a hex mark. -/
theorem digitByte_ne
    {digit : Nat}
    (hDigit : digit < 16) :
    isSpace (digitByte digit) = false ∧
      digitByte digit ≠ 43 ∧ digitByte digit ≠ 45 ∧
      digitByte digit ≠ 120 ∧ digitByte digit ≠ 88 ∧
      digitByte digit ≠ 0 := by
  interval_cases digit <;> decide

theorem skipHexMark_map_digitByte
    (base : Nat)
    (digits : List Nat)
    (hDigits : ∀ digit ∈ digits, digit < 16) :
    skipHexMark base (digits.map digitByte) =
      digits.map digitByte := by
  unfold skipHexMark
  split
  case h_1 x b bs hShape =>
      have hMember : x ∈ digits.map digitByte := by
        rw [hShape]
        simp
      rcases List.mem_map.mp hMember with
        ⟨digit, hDigit, rfl⟩
      have hNe := digitByte_ne (hDigits digit hDigit)
      simp [hNe.2.2.2.1, hNe.2.2.2.2.1, hShape]
  case h_2 => rfl

theorem scanMagnitude_map_digitByte
    {base : Nat}
    (hBase : base ≤ 16)
    (digits : List Nat)
    (hNonempty : digits ≠ [])
    (hDigits : ∀ digit ∈ digits, digit < base) :
    scanMagnitude base (digits.map digitByte) =
      some (digitsValue base digits) := by
  have hSmall : ∀ digit ∈ digits, digit < 16 := by
    intro digit hMember
    have hDigit := hDigits digit hMember
    omega
  unfold scanMagnitude
  rw [skipHexMark_map_digitByte base digits hSmall,
    readDigits_map_digitByte hBase digits hDigits]
  cases digits with
  | nil => exact absurd rfl hNonempty
  | cons digit digits => rfl

theorem strtoulValue_lt
    (negative : Bool)
    (magnitude : Nat) :
    strtoulValue negative magnitude < 2 ^ 32 := by
  unfold strtoulValue
  split_ifs <;> omega

/- Digits that write a 32-bit number. -/
theorem scanUnsigned_map_digitByte
    {base : Nat}
    (hHex : base ≤ 16)
    (digits : List Nat)
    (hNonempty : digits ≠ [])
    (hDigits : ∀ digit ∈ digits, digit < base)
    (hBound : digitsValue base digits < 2 ^ 32) :
    scanUnsigned base (digits.map digitByte) =
      some (digitsValue base digits) := by
  cases digits with
  | nil => exact absurd rfl hNonempty
  | cons digit digits =>
      have hNe :=
        digitByte_ne
          (lt_of_lt_of_le
            (hDigits digit (List.mem_cons_self ..)) hHex)
      have hDrop :
          ((digit :: digits).map digitByte).dropWhile
              isSpace =
            (digit :: digits).map digitByte := by
        simp [hNe.1]
      have hMagnitude :=
        scanMagnitude_map_digitByte hHex (digit :: digits)
          hNonempty hDigits
      unfold scanUnsigned
      rw [hDrop]
      simp only [List.map_cons] at hMagnitude ⊢
      split
      case h_1 bs hShape =>
          exact absurd (List.cons.inj hShape).1 hNe.2.1
      case h_2 bs hShape =>
          exact absurd (List.cons.inj hShape).1 hNe.2.2.1
      case h_3 =>
          rw [hMagnitude, Option.map_some, strtoulValue,
            if_neg (Nat.not_le.mpr hBound),
            if_neg Bool.false_ne_true]

/- Leading zeros do not count. -/
theorem digitsValue_replicate_zero_append
    (base count : Nat)
    (digits : List Nat) :
    digitsValue base (List.replicate count 0 ++ digits) =
      digitsValue base digits := by
  unfold digitsValue
  induction count with
  | zero => rfl
  | succ count ih => simpa [List.replicate_succ] using ih

/-
  Scanning a printed 32-bit number gives it back, however
  many zeros it is padded with.
-/
theorem scanUnsigned_padded
    {base n : Nat}
    (hBase : 1 < base)
    (hHex : base ≤ 16)
    (hBound : n < 2 ^ 32)
    (count : Nat) :
    scanUnsigned base
        (List.replicate count (charByte '0') ++
          digitsText base n) =
      some n := by
  rcases digitsText_eq hBase n with
    ⟨digits, hNonempty, hDigits, hText, hValue⟩
  have hPadded :
      List.replicate count (charByte '0') ++
          digitsText base n =
        (List.replicate count 0 ++ digits).map digitByte := by
    rw [hText, List.map_append, List.map_replicate]
    rfl
  have hSame :
      digitsValue base (List.replicate count 0 ++ digits) =
        n := by
    rw [digitsValue_replicate_zero_append, hValue]
  rw [hPadded, ← hSame]
  apply scanUnsigned_map_digitByte hHex
  · simp [hNonempty]
  · intro digit hMember
    rcases List.mem_append.mp hMember with hZero | hDigit
    · rw [List.eq_of_mem_replicate hZero]
      omega
    · exact hDigits digit hDigit
  · rw [hSame]
    exact hBound

theorem scanUnsigned_digitsText
    {base n : Nat}
    (hBase : 1 < base)
    (hHex : base ≤ 16)
    (hBound : n < 2 ^ 32) :
    scanUnsigned base (digitsText base n) = some n :=
  scanUnsigned_padded hBase hHex hBound 0

/- The largest magnitude that a minus sign still negates. -/
example :
    scanUnsigned 10 (ascii "-4294967295") = some 1 ∧
      scanUnsigned 10 (ascii "-4294967296") =
        some (2 ^ 32 - 1) := by
  decide +kernel

theorem stripLiteral_append
    (literal input : List UInt8) :
    stripLiteral literal (literal ++ input) = some input := by
  induction literal with
  | nil => rfl
  | cons c cs ih => simp [stripLiteral, ih]

/- What was removed from the front. -/
theorem stripLiteral_eq_some
    {literal input rest : List UInt8}
    (hStrip : stripLiteral literal input = some rest) :
    input = literal ++ rest := by
  induction literal generalizing input with
  | nil =>
      cases hStrip
      rfl
  | cons c cs ih =>
      cases input with
      | nil => cases hStrip
      | cons b bs =>
          rw [stripLiteral,
            Option.ite_none_right_eq_some] at hStrip
          rw [ih hStrip.2, hStrip.1, List.cons_append]

/-
  A literal, a blank and a printed number are scanned back
  to the number.
-/
theorem sscanfUnsigned_append
    {base n : Nat}
    (literal : String)
    (hBase : 1 < base)
    (hHex : base ≤ 16)
    (hBound : n < 2 ^ 32) :
    sscanfUnsigned literal base
        (ascii literal ++ 32 :: digitsText base n) =
      some n := by
  have hBlank :
      scanUnsigned base (32 :: digitsText base n) =
        scanUnsigned base (digitsText base n) := by
    have hSpace : isSpace 32 = true := by
      decide
    simp [scanUnsigned, hSpace]
  unfold sscanfUnsigned
  rw [stripLiteral_append, Option.bind_some, hBlank,
    scanUnsigned_digitsText hBase hHex hBound]

/- A scanned value is a 32-bit word. -/
theorem sscanfUnsigned_lt
    {literal : String}
    {base value : Nat}
    {input : List UInt8}
    (hScan : sscanfUnsigned literal base input = some value) :
    value < 2 ^ 32 := by
  have hValue :
      ∀ {negative : Bool} {magnitude : Option Nat},
        magnitude.map (strtoulValue negative) = some value →
          value < 2 ^ 32 := by
    intro negative magnitude hMap
    rcases Option.map_eq_some_iff.mp hMap with ⟨n, _, hEq⟩
    rw [← hEq]
    exact strtoulValue_lt negative n
  unfold sscanfUnsigned at hScan
  cases hStrip : stripLiteral (ascii literal) input with
  | none => simp [hStrip] at hScan
  | some rest =>
      rw [hStrip, Option.bind_some] at hScan
      unfold scanUnsigned at hScan
      split at hScan <;> exact hValue hScan

/- An input with another start is not scanned. -/
theorem sscanfUnsigned_eq_none
    {literal : String}
    {base n : Nat}
    {input : List UInt8}
    (hNe : input.take n ≠ (ascii literal).take n)
    (hLength : n ≤ (ascii literal).length) :
    sscanfUnsigned literal base input = none := by
  unfold sscanfUnsigned
  cases hStrip : stripLiteral (ascii literal) input with
  | none => rfl
  | some rest =>
      rw [stripLiteral_eq_some hStrip,
        List.take_append_of_le_length hLength] at hNe
      exact absurd rfl hNe

/- The bytes of a printed number are digits. -/
theorem digitsText_ne_zero
    {base : Nat}
    (hBase : 1 < base)
    (hHex : base ≤ 16)
    (n : Nat) :
    ∀ b ∈ digitsText base n, b ≠ 0 := by
  intro b hMember
  rcases digitsText_eq hBase n with
    ⟨digits, _, hDigits, hText, _⟩
  rw [hText, List.mem_map] at hMember
  rcases hMember with ⟨digit, hDigit, rfl⟩
  have hSmall := (hDigits digit hDigit).trans_le hHex
  exact (digitByte_ne hSmall).2.2.2.2.2

end Text
