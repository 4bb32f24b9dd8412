import Mathlib.Data.List.Basic

/-!
# Paio.Library.Decimal

Decimal numerals followed by a separator can be read back: a separator that is no digit ends the
numeral, so both the number and the rest of the text are determined.
-/

namespace Decimal

theorem takeWhile_isDigit_repr (n : Nat) {sep : Char} (hsep : sep.isDigit = false)
    (s : List Char) :
    (n.repr.toList ++ sep :: s).takeWhile Char.isDigit = n.repr.toList := by
  rw [List.takeWhile_append_of_pos]
  · simp [hsep]
  · intro c hc
    rw [Nat.toList_repr] at hc
    exact Nat.isDigit_of_mem_toDigits (by decide) (by decide) hc

theorem repr_toList_inj {m n : Nat} (h : m.repr.toList = n.repr.toList) : m = n := by
  have hd := congrArg (fun ds => Nat.ofDigitChars 10 ds 0) h
  simpa [Nat.toList_repr] using hd

theorem repr_sep_inj {m n : Nat} {sep : Char} (hsep : sep.isDigit = false) {s t : List Char}
    (h : m.repr.toList ++ sep :: s = n.repr.toList ++ sep :: t) : m = n ∧ s = t := by
  have hd := congrArg (List.takeWhile Char.isDigit) h
  rw [takeWhile_isDigit_repr m hsep, takeWhile_isDigit_repr n hsep] at hd
  have hmn : m = n := repr_toList_inj hd
  subst hmn
  simpa using h

end Decimal
