/-!
The Unicode property `White_Space`, and the removal of such characters from the ends of a text.
-/

namespace Phrasebook.Text

/-- The code points with the property `White_Space`. -/
def spaceCodes : List Nat :=
  [0x09, 0x0A, 0x0B, 0x0C, 0x0D, 0x20, 0x85, 0xA0, 0x1680, 0x2000, 0x2001, 0x2002, 0x2003, 0x2004,
    0x2005, 0x2006, 0x2007, 0x2008, 0x2009, 0x200A, 0x2028, 0x2029, 0x202F, 0x205F, 0x3000]

/-- Whether a character has the property `White_Space`. -/
def isSpace (c : Char) : Bool := spaceCodes.contains c.toNat

/-- A text without the space at its end. -/
def trimEnd (text : List Char) : List Char := (text.reverse.dropWhile isSpace).reverse

/-- A text without the space at either end. -/
def trim (text : List Char) : List Char := trimEnd (text.dropWhile isSpace)

theorem isSpace_of_isDigit {c : Char} (digit : c.isDigit = true) : isSpace c = false := by
  obtain ⟨low, high⟩ : 48 ≤ c.toNat ∧ c.toNat ≤ 57 := by
    simpa [Char.isDigit, UInt32.le_iff_toNat_le] using digit
  simp only [isSpace, spaceCodes, List.contains_eq_mem, decide_eq_false_iff_not, List.mem_cons,
    List.not_mem_nil, or_false, not_or]
  omega

variable {before text after : List Char}

theorem dropWhile_isSpace {c : Char} (space : ∀ c ∈ before, isSpace c = true)
    (solid : isSpace c = false) : (before ++ c :: text).dropWhile isSpace = c :: text := by
  rw [List.dropWhile_append_of_pos space, List.dropWhile_cons_of_neg (by simp [solid])]

/-- Space around a text that has none in it is removed. -/
theorem trim_append (spaceBefore : ∀ c ∈ before, isSpace c = true)
    (spaceAfter : ∀ c ∈ after, isSpace c = true) (solid : ∀ c ∈ text, isSpace c = false)
    (nonempty : text ≠ []) : trim (before ++ text ++ after) = text := by
  obtain ⟨first, rest, same⟩ := List.exists_cons_of_ne_nil nonempty
  obtain ⟨last, front, reversed⟩ := List.exists_cons_of_ne_nil (List.reverse_ne_nil_iff.mpr nonempty)
  have start : (before ++ text ++ after).dropWhile isSpace = text ++ after := by
    rw [List.append_assoc, same]
    exact dropWhile_isSpace spaceBefore (solid first (same ▸ List.mem_cons_self))
  have finish : (text ++ after).reverse.dropWhile isSpace = text.reverse := by
    have lastSolid : isSpace last = false :=
      solid last (List.mem_reverse.mp (reversed ▸ List.mem_cons_self))
    rw [List.reverse_append, reversed]
    exact dropWhile_isSpace (fun c member => spaceAfter c (List.mem_reverse.mp member)) lastSolid
  rw [trim, start, trimEnd, finish, List.reverse_reverse]

end Phrasebook.Text
