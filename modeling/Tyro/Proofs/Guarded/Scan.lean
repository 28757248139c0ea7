import Tyro.Proofs.Token.Written

/-!
# Scanning by byte offsets

A scanner that works on bytes cuts its text at offsets, and a cut inside a character or beyond the
end of the text breaks it off. `Text.splitBytes?` is such a cut, and `Guarded.scan?` is the scanner
with every cut written out. No cut breaks it off, and its tokens are those of `Token.scan`
(`Guarded.scan?_eq`), because each token ends where a character ends.

The quotes of a string token are cut off in the same way (`Guarded.cutQuotes?`).
-/

namespace Tyro

/-- The characters of the first `n` bytes and those behind them. There is no result if byte `n` is
inside a character or beyond the end. -/
def Text.splitBytes? (n : Nat) : List Char → Option (List Char × List Char)
  | [] => if n = 0 then some ([], []) else none
  | c :: cs =>
    if n = 0 then some ([], c :: cs)
    else if c.utf8Size ≤ n then
      (splitBytes? (n - c.utf8Size) cs).map fun (front, back) => (c :: front, back)
    else none

/-- A cut at the measure of a beginning succeeds, with this beginning and the rest. -/
theorem Text.splitBytes?_append (front back : List Char) :
    splitBytes? (byteSize front) (front ++ back) = some (front, back) := by
  induction front with
  | nil => cases back <;> rfl
  | cons c front ih =>
    have positive : byteSize (c :: front) ≠ 0 := by
      have positive := c.utf8Size_pos
      rw [byteSize]
      omega
    rw [List.cons_append, splitBytes?, if_neg positive, byteSize, if_pos (Nat.le_add_right ..),
      Nat.add_sub_cancel_left, ih]
    rfl

namespace Guarded

open Token

/-! ## Tokens -/

/-- The tokens of a text from a byte offset on, if there are fewer than `steps`. -/
def scanFrom? (cs : List Char) : Nat → Nat → Option (List Token)
  | 0, _ => none
  | steps + 1, offset => do
    let (_, rest) ← Text.splitBytes? offset cs
    match rest with
    | [] => return []
    | c :: more =>
      let (kind, count) := lexeme c more
      let length := Text.byteSize (c :: more.take count)
      let (text, _) ← Text.splitBytes? length rest
      return ⟨kind, String.ofList text, ⟨offset, offset + length⟩⟩ ::
        (← scanFrom? cs steps (offset + length))

/-- The tokens of a text. Each takes a character at least. -/
def scan? (source : String) : Option (List Token) :=
  scanFrom? source.toList (source.toList.length + 1) 0

/-- From the end of any beginning of a text, the rest is scanned without breaking off. -/
theorem scanFrom?_eq (front back : List Char) {steps : Nat} (enough : back.length < steps) :
    scanFrom? (front ++ back) steps (Text.byteSize front) =
      some (scanFrom (Text.byteSize front) back) := by
  induction steps generalizing front back with
  | zero => cases enough
  | succ steps ih =>
    rw [scanFrom?, Text.splitBytes?_append]
    cases back with
    | nil =>
      rw [scanFrom]
      rfl
    | cons c more =>
      have token :
          c :: more = (c :: more.take (lexeme c more).2) ++ more.drop (lexeme c more).2 := by
        rw [List.cons_append, List.take_append_drop]
      have cut := Text.splitBytes?_append (c :: more.take (lexeme c more).2)
        (more.drop (lexeme c more).2)
      rw [← token] at cut
      have shorter : (more.drop (lexeme c more).2).length < steps := by
        rw [List.length_cons] at enough
        rw [List.length_drop]
        omega
      have rest := ih (front ++ c :: more.take (lexeme c more).2) _ shorter
      rw [List.append_assoc, ← token, Text.byteSize_append] at rest
      rw [scanFrom]
      simp only [Option.bind_eq_bind, Option.bind_some, cut, rest]
      rfl

/-- **The scanner does not break off.** -/
theorem scan?_eq (source : String) : scan? source = some (scan source) :=
  scanFrom?_eq [] source.toList (Nat.lt_succ_self _)

/-! ## Strings -/

/-- A text without its first and its last byte. There is no result if there are not both, or if one
is no character by itself. -/
def cutQuotes? (cs : List Char) : Option (List Char) :=
  let stop := Text.byteSize cs - 1
  if 1 ≤ stop then do
    let (front, _) ← Text.splitBytes? stop cs
    let (_, inside) ← Text.splitBytes? 1 front
    return inside
  else none

/-- The quotes of a string can be cut off. -/
theorem cutQuotes?_eq (content : List Char) :
    cutQuotes? ('\x22' :: (content ++ ['\x22'])) = some content := by
  have quote : Char.utf8Size '\x22' = 1 := by decide
  have size : Text.byteSize ('\x22' :: (content ++ ['\x22'])) - 1 =
      Text.byteSize ('\x22' :: content) := by
    simp only [Text.byteSize, Text.byteSize_append, quote]
    omega
  have positive : 1 ≤ Text.byteSize ('\x22' :: content) := by
    rw [Text.byteSize, quote]
    omega
  have front : Text.splitBytes? (Text.byteSize ('\x22' :: content))
      ('\x22' :: (content ++ ['\x22'])) = some ('\x22' :: content, ['\x22']) :=
    Text.splitBytes?_append ('\x22' :: content) ['\x22']
  have inside : Text.splitBytes? 1 ('\x22' :: content) = some (['\x22'], content) :=
    Text.splitBytes?_append ['\x22'] content
  simp only [cutQuotes?, size, if_pos positive, front, inside, Option.bind_eq_bind,
    Option.bind_some]
  rfl

end Guarded

end Tyro
