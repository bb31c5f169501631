/-!
# Blanks

The characters that count as blank around a text, which are those of the White_Space property, and
the removal of blanks from both ends.
-/

namespace Tabletop.Text

/-- Whether a character is blank. -/
def isBlank (c : Char) : Bool :=
  let n := c.toNat
  (9 ≤ n && n ≤ 13) || n == 0x20 || n == 0x85 || n == 0xA0 || n == 0x1680
    || (0x2000 ≤ n && n ≤ 0x200A) || n == 0x2028 || n == 0x2029 || n == 0x202F || n == 0x205F
    || n == 0x3000

/-- The text without the blanks at its two ends. -/
def trim (cs : List Char) : List Char :=
  ((cs.dropWhile isBlank).reverse.dropWhile isBlank).reverse

/-- Text without a blank at either end stays as it is. -/
theorem trim_eq_self {cs : List Char} (hhead : ∀ c ∈ cs.head?, isBlank c = false)
    (hlast : ∀ c ∈ cs.getLast?, isBlank c = false) : trim cs = cs := by
  have hdrop : ∀ ds : List Char, (∀ c ∈ ds.head?, isBlank c = false) → ds.dropWhile isBlank = ds
    | [], _ => rfl
    | d :: _, h => by simp [h d (by simp)]
  unfold trim
  rw [hdrop cs hhead, hdrop cs.reverse (by simpa using hlast), List.reverse_reverse]

end Tabletop.Text
