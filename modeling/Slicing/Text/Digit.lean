/-!
# Decimal digits

A decimal digit is a character of any script that stands for one of the numbers 0 to 9 in a
positional number. The digits of one script are ten code points in a row, so a table of the zeros
says everything. It is that of version 14 of the character database.

A run of digits is read as a number that must stay within the signed word of the host.
-/

namespace Slicing.Text

/-- The digits for zero, in increasing order. -/
def zeroDigits : List Nat :=
  [ 0x30, 0x660, 0x6f0, 0x7c0, 0x966, 0x9e6, 0xa66, 0xae6, 0xb66, 0xbe6, 0xc66, 0xce6, 0xd66,
    0xde6, 0xe50, 0xed0, 0xf20, 0x1040, 0x1090, 0x17e0, 0x1810, 0x1946, 0x19d0, 0x1a80, 0x1a90,
    0x1b50, 0x1bb0, 0x1c40, 0x1c50, 0xa620, 0xa8d0, 0xa900, 0xa9d0, 0xa9f0, 0xaa50, 0xabf0,
    0xff10, 0x104a0, 0x10d30, 0x11066, 0x110f0, 0x11136, 0x111d0, 0x112f0, 0x11450, 0x114d0,
    0x11650, 0x116c0, 0x11730, 0x118e0, 0x11950, 0x11c50, 0x11d50, 0x11da0, 0x16a60, 0x16ac0,
    0x16b50, 0x1d7ce, 0x1d7d8, 0x1d7e2, 0x1d7ec, 0x1d7f6, 0x1e140, 0x1e2f0, 0x1e950, 0x1fbf0 ]

/-- The number that a digit stands for, if the character is one. -/
def digitValue? (c : Char) : Option Nat :=
  (zeroDigits.find? fun low => low ≤ c.toNat && c.toNat ≤ low + 9).map (c.toNat - ·)

/-- The greatest number that a run of digits may stand for: the top of the host's signed word. -/
def greatestNumber : Nat :=
  Nat.pow 2 63 - 1

/-- What comes of reading a run of digits from the front of a text. -/
inductive DigitRun where
  /-- The number read, the number of digits, and the text behind them. -/
  | number (value count : Nat) (rest : List Char)
  /-- The number is greater than any that is allowed. -/
  | tooGreat
  deriving DecidableEq

/-- Reads the digits in front of a text, after `count` others that make up `value`. -/
def DigitRun.extend (value count : Nat) : List Char → DigitRun
  | [] => number value count []
  | c :: rest =>
    match digitValue? c with
    | none => number value count (c :: rest)
    | some d =>
      if greatestNumber < 10 * value + d then tooGreat
      else DigitRun.extend (10 * value + d) (count + 1) rest

/-- Reads the digits in front of a text. -/
def DigitRun.read (cs : List Char) : DigitRun :=
  DigitRun.extend 0 0 cs

end Slicing.Text
