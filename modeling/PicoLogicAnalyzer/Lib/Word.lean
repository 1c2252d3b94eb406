import Mathlib.Data.Nat.ModEq
import Mathlib.Tactic.Ring

/-
  Fixed-width unsigned arithmetic on natural numbers,
  little-endian byte strings and bitwise operators on signed
  32-bit words.

  Key definitions include:
    * `Word.u32`, `Word.u64`, `Word.sub32`
    * `Word.toLittleEndian`
    * `Word.ofLittleEndian`
    * `Word.or32`, `Word.and32`, `Word.unsigned32`
-/

------------------------------------------------------------
-- Truncated Arithmetic
------------------------------------------------------------

namespace Word

/- Truncation to 32 bits. -/
def u32 (n : Nat) : Nat :=
  n % 2 ^ 32

/- Truncation to 64 bits. -/
def u64 (n : Nat) : Nat :=
  n % 2 ^ 64

/- Wrapping 32-bit subtraction of 32-bit operands. -/
def sub32 (a b : Nat) : Nat :=
  u32 (a + (2 ^ 32 - b))

theorem u32_lt (n : Nat) : u32 n < 2 ^ 32 :=
  Nat.mod_lt n (by decide)

theorem u64_lt (n : Nat) : u64 n < 2 ^ 64 :=
  Nat.mod_lt n (by decide)

theorem u32_of_lt
    {n : Nat}
    (hBound : n < 2 ^ 32) :
    u32 n = n :=
  Nat.mod_eq_of_lt hBound

theorem u64_of_lt
    {n : Nat}
    (hBound : n < 2 ^ 64) :
    u64 n = n :=
  Nat.mod_eq_of_lt hBound

theorem u32_le (n : Nat) : u32 n ≤ n :=
  Nat.mod_le n _

theorem u64_le (n : Nat) : u64 n ≤ n :=
  Nat.mod_le n _

/- Truncating the summands first changes nothing. -/
theorem u32_add_u32
    (a b : Nat) :
    u32 (a + u32 b) = u32 (a + b) := by
  simp [u32]

theorem u32_u32_add
    (a b : Nat) :
    u32 (u32 a + b) = u32 (a + b) := by
  simp [u32]

theorem u64_u64_add
    (a b : Nat) :
    u64 (u64 a + b) = u64 (a + b) := by
  simp [u64]

/- Without a borrow the subtraction is exact. -/
theorem sub32_of_le
    {a b : Nat}
    (hOrder : b ≤ a)
    (hBound : a < 2 ^ 32) :
    sub32 a b = a - b := by
  unfold sub32 u32
  omega

/- The difference of truncated counts. -/
theorem sub32_u32_add
    (a b : Nat) :
    sub32 (u32 (a + b)) (u32 a) = u32 b := by
  unfold sub32 u32
  omega

/-
  A deadline on a 32-bit clock, compared as a number, says
  whether the delay has elapsed exactly when deadline and
  clock have both wrapped since `t` or neither has.
-/
theorem deadline_exact_iff
    {t delay now : Nat}
    (hStart : t < 2 ^ 32)
    (hDelay : delay < 2 ^ 32)
    (hNow : now < 2 ^ 32) :
    (u32 (t + delay) ≤ now ↔ delay ≤ sub32 now t) ↔
      (t + delay < 2 ^ 32 ↔ t ≤ now) := by
  unfold sub32 u32
  omega

end Word

------------------------------------------------------------
-- Little-Endian Byte Strings
------------------------------------------------------------

namespace Word

/- The `width` low bytes of `n`, least significant first. -/
def toLittleEndian : Nat → Nat → List UInt8
| 0, _ => []
| width + 1, n =>
    UInt8.ofNat (n % 256) :: toLittleEndian width (n / 256)

/- The number whose bytes are given, least significant first. -/
def ofLittleEndian : List UInt8 → Nat
| [] => 0
| b :: bs => b.toNat + 256 * ofLittleEndian bs

@[simp] theorem length_toLittleEndian
    (width n : Nat) :
    (toLittleEndian width n).length = width := by
  induction width generalizing n with
  | zero => rfl
  | succ width ih => simp [toLittleEndian, ih]

/- Reading back a word gives its low bytes. -/
theorem ofLittleEndian_toLittleEndian
    (width n : Nat) :
    ofLittleEndian (toLittleEndian width n) =
      n % 256 ^ width := by
  induction width generalizing n with
  | zero => simp [toLittleEndian, ofLittleEndian, Nat.mod_one]
  | succ width ih =>
      have hByte :
          (UInt8.ofNat (n % 256)).toNat = n % 256 := by
        simp
      have hSplit :
          n % 256 ^ (width + 1) =
            n % 256 + 256 * (n / 256 % 256 ^ width) := by
        rw [Nat.pow_succ, Nat.mul_comm (256 ^ width) 256]
        exact Nat.mod_mul
      simp only [toLittleEndian, ofLittleEndian, ih, hByte,
        hSplit]

/- A byte string is smaller than its length allows. -/
theorem ofLittleEndian_lt (bytes : List UInt8) :
    ofLittleEndian bytes < 256 ^ bytes.length := by
  induction bytes with
  | nil => decide
  | cons byte bytes ih =>
      have hByte := byte.toNat_lt
      rw [List.length_cons, Nat.pow_succ]
      unfold ofLittleEndian
      omega

end Word

------------------------------------------------------------
-- Signed Bitwise Operators
------------------------------------------------------------

namespace Word

/- `a | b` on numbers, through signed 32-bit words. -/
def or32 (a b : Int) : Int :=
  (BitVec.ofInt 32 a ||| BitVec.ofInt 32 b).toInt

/- `a & b` on numbers, through signed 32-bit words. -/
def and32 (a b : Int) : Int :=
  (BitVec.ofInt 32 a &&& BitVec.ofInt 32 b).toInt

/- `a >>> 0`, the word read as an unsigned number. -/
def unsigned32 (a : Int) : Nat :=
  (BitVec.ofInt 32 a).toNat

/- Below the sign bit the operator acts on naturals. -/
theorem or32_natCast
    {a b : Nat}
    (ha : a < 2 ^ 31)
    (hb : b < 2 ^ 31) :
    or32 a b = ((a ||| b : Nat) : Int) := by
  have hWord :
      (BitVec.ofNat 32 a ||| BitVec.ofNat 32 b).toNat =
        a ||| b := by
    rw [BitVec.toNat_or, BitVec.toNat_ofNat,
      BitVec.toNat_ofNat, Nat.mod_eq_of_lt (by omega),
      Nat.mod_eq_of_lt (by omega)]
  have hOr := Nat.or_lt_two_pow ha hb
  unfold or32
  rw [BitVec.ofInt_natCast, BitVec.ofInt_natCast,
    BitVec.toInt_eq_toNat_of_lt (by omega), hWord]

/- A sign bit that `&` produces is undone by the shift. -/
theorem unsigned32_and32
    {a b : Nat}
    (ha : a < 2 ^ 32)
    (hb : b < 2 ^ 32) :
    unsigned32 (and32 a b) = a &&& b := by
  unfold unsigned32 and32
  rw [BitVec.ofInt_toInt, BitVec.ofInt_natCast,
    BitVec.ofInt_natCast, BitVec.toNat_and,
    BitVec.toNat_ofNat, BitVec.toNat_ofNat,
    Nat.mod_eq_of_lt ha, Nat.mod_eq_of_lt hb]

end Word
