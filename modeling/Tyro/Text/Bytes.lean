/-!
# Byte offsets

Positions in a source text are byte offsets into its UTF-8 form. `byteSize` measures characters in
bytes and `takeBytes` cuts a text at an offset. The lemmas say that the measure is additive and
that a cut at the measure of a beginning gives that beginning back.
-/

namespace Tyro.Text

/-- The number of bytes that the UTF-8 form of the characters takes. -/
def byteSize : List Char → Nat
  | [] => 0
  | c :: cs => c.utf8Size + byteSize cs

theorem byteSize_append (xs ys : List Char) : byteSize (xs ++ ys) = byteSize xs + byteSize ys := by
  induction xs with
  | nil => simp [byteSize]
  | cons c cs ih => simp [byteSize, ih, Nat.add_assoc]

/-- The longest beginning of the characters that fits into `n` bytes. -/
def takeBytes (n : Nat) : List Char → List Char
  | [] => []
  | c :: cs => if c.utf8Size ≤ n then c :: takeBytes (n - c.utf8Size) cs else []

/-- A cut at the measure of a beginning gives that beginning back. -/
theorem takeBytes_byteSize_append (xs ys : List Char) :
    takeBytes (byteSize xs) (xs ++ ys) = xs := by
  induction xs with
  | nil =>
    cases ys with
    | nil => rfl
    | cons c cs =>
      have : ¬ c.utf8Size ≤ 0 := by have := c.utf8Size_pos; omega
      simp [takeBytes, byteSize, this]
  | cons c cs ih => simp [takeBytes, byteSize, ih]

end Tyro.Text
