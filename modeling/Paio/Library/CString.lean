import Mathlib.Data.List.TakeWhile

/-!
# Paio.Library.CString

C strings: of a text, what stands before its first NUL.
-/

namespace CString

/-- The text that ends at the first NUL. -/
def cString (s : List UInt8) : List UInt8 := s.takeWhile fun c => !decide (c = 0)

theorem cString_eq_self {s : List UInt8} (h : 0 ∉ s) : cString s = s := by
  refine List.takeWhile_eq_self_iff.mpr ?_
  intro c hc
  simpa using ne_of_mem_of_not_mem hc h

/-- A text without NUL is read up to its terminator. -/
theorem cString_append_nul {s : List UInt8} (h : 0 ∉ s) (tail : List UInt8) :
    cString (s ++ 0 :: tail) = s := by
  have hall : ∀ c ∈ s, (!decide (c = 0)) = true := by
    intro c hc
    simpa using ne_of_mem_of_not_mem hc h
  unfold cString
  rw [List.takeWhile_append_of_pos hall]
  simp

end CString
