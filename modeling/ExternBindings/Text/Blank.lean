/-
**Blank characters at the ends of a text.**

`trim` removes every character with the Unicode property White_Space from both ends of a text.

* `trim_eq_self`: a text with no blank at either end is left alone;
* `trim_sublist`: nothing else is removed, and nothing added.
-/

namespace ExternBindings.Text

/-- Characters with the property White_Space. -/
def isBlank (char : Char) : Bool :=
  let code := char.toNat
  (0x09 ≤ code && code ≤ 0x0D) || code == 0x20 || code == 0x85 || code == 0xA0 || code == 0x1680 ||
    (0x2000 ≤ code && code ≤ 0x200A) || code == 0x2028 || code == 0x2029 || code == 0x202F ||
    code == 0x205F || code == 0x3000

/-- A text without the blanks at its end. -/
def trimEnd (text : List Char) : List Char :=
  (text.reverse.dropWhile isBlank).reverse

/-- A text without the blanks at its ends. -/
def trim (text : List Char) : List Char :=
  trimEnd (text.dropWhile isBlank)

/-- A text that starts and ends with a solid character is left alone. -/
theorem trim_eq_self {first last : Char} {text before : List Char}
    (starts : isBlank first = false) (ends : isBlank last = false)
    (split : first :: text = before ++ [last]) : trim (first :: text) = first :: text := by
  have kept : (first :: text).dropWhile isBlank = first :: text := by simp [starts]
  rw [trim, kept, trimEnd, split]
  simp [ends]

theorem trim_sublist (text : List Char) : (trim text).Sublist text := by
  have front : (text.dropWhile isBlank).Sublist text := List.dropWhile_sublist isBlank
  have back := (List.dropWhile_sublist isBlank (l := (text.dropWhile isBlank).reverse)).reverse
  rw [List.reverse_reverse] at back
  exact back.trans front

end ExternBindings.Text
