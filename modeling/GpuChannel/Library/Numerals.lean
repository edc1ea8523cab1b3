/-
# Numerals of generic code

A numeral of a field is read through the fact that it is at least two.  The numerals that programs
over a generic field share have this fact by name, once for all of them.
-/
import Mathlib

instance atLeastTwo_two : Nat.AtLeastTwo 2 := ⟨by norm_num⟩

instance atLeastTwo_ten : Nat.AtLeastTwo 10 := ⟨by norm_num⟩

instance atLeastTwo_twenty : Nat.AtLeastTwo 20 := ⟨by norm_num⟩

instance atLeastTwo_sixty : Nat.AtLeastTwo 60 := ⟨by norm_num⟩

instance atLeastTwo_hundred : Nat.AtLeastTwo 100 := ⟨by norm_num⟩

instance atLeastTwo_twoHundred : Nat.AtLeastTwo 200 := ⟨by norm_num⟩

instance atLeastTwo_million : Nat.AtLeastTwo 1000000 := ⟨by norm_num⟩
