/-!
# Cutting texts

A position in a text can be counted in bytes of its UTF-8 form. `takeBytes` and `dropBytes` cut a
text at such a position, unless it falls inside a character; together they lose nothing
(`takeBytes_append_dropBytes`).

A blank is a character of the property `White_Space` of the Unicode Character Database. `trim` takes
the blanks off both ends of a text.
-/

namespace WriteAhead.Text

/-! ## At a position in bytes -/

/-- The number of bytes of some characters. -/
def byteSize : List Char → Nat
  | [] => 0
  | c :: cs => c.utf8Size + byteSize cs

/-- What stands before a position. -/
def takeBytes : Nat → List Char → Option (List Char)
  | 0, _ => some []
  | _ + 1, [] => none
  | n + 1, c :: cs =>
    if c.utf8Size ≤ n + 1 then (takeBytes (n + 1 - c.utf8Size) cs).map (c :: ·) else none

/-- What stands behind a position. -/
def dropBytes : Nat → List Char → Option (List Char)
  | 0, cs => some cs
  | _ + 1, [] => none
  | n + 1, c :: cs => if c.utf8Size ≤ n + 1 then dropBytes (n + 1 - c.utf8Size) cs else none

/-- What `takeBytes` takes and what `dropBytes` leaves are the whole. -/
theorem takeBytes_append_dropBytes {n : Nat} {cs before behind : List Char}
    (h : takeBytes n cs = some before) (k : dropBytes n cs = some behind) :
    before ++ behind = cs := by
  induction cs generalizing n before with
  | nil => cases n <;> simp_all [takeBytes, dropBytes]
  | cons c cs ih =>
    cases n with
    | zero => simp_all [takeBytes, dropBytes]
    | succ n =>
      simp only [takeBytes, dropBytes] at h k
      split at h
      · rename_i hc
        rw [if_pos hc] at k
        obtain ⟨front, hf, rfl⟩ := Option.map_eq_some_iff.1 h
        simp [ih hf k]
      · cases h

/-! ## Around blanks -/

/-- Whether a character is a blank. -/
def isBlank (c : Char) : Bool :=
  let n := c.toNat
  (9 ≤ n && n ≤ 13) || n == 0x20 || n == 0x85 || n == 0xa0 || n == 0x1680 ||
    (0x2000 ≤ n && n ≤ 0x200a) || n == 0x2028 || n == 0x2029 || n == 0x202f || n == 0x205f ||
    n == 0x3000

/-- The characters without the blanks at their ends. -/
def trim (cs : List Char) : List Char :=
  ((cs.dropWhile isBlank).reverse.dropWhile isBlank).reverse

end WriteAhead.Text
