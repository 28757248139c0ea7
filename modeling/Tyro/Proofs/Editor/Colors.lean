import Tyro.Editor.Highlight
import Tyro.Editor.Validate
import Tyro.Proofs.Sexp.Kinds
import Tyro.Proofs.Token.Boundary

/-!
# The colours of brackets

A highlighted text is the text with escape sequences put in, and the colours of its brackets are
those of the stack on which every closing bracket pops the top, whatever its kind (`openAt`).

* `Colored ts cursor k i c`: the closing bracket at place `k` gives the colour to the bracket at
  place `i`. `exists_marksFrom_cons` says of one token, and `mem_marksFrom` of all, that the scan
  makes the marks for these and no others.
* `Colored.unique`: no bracket gets two colours, because it pops or is popped once. A token stands
  in one place (`Token.place_unique_of_stop`), so the last mark that is made for it is its only
  one.
* `exists_wrong_iff`: the scan for colours goes on behind a wrong bracket, and the verdict on an
  entry stops there, but there is a wrong bracket for both or for none.
-/

namespace Tyro

open Reader
open Token (scan)

/-! ## Tokens and their places -/

namespace Token

/-- Tokens in their places stand one behind the other. -/
theorem pairwise_place (offset : Nat) (ps : List Piece) :
    (place offset ps).Pairwise fun t u => t.span.stop ≤ u.span.start := by
  induction ps generalizing offset with
  | nil => exact .nil
  | cons p ps ih => exact List.pairwise_cons.2 ⟨fun u mem => (bounds_of_mem_place mem).1, ih _⟩

/-- The tokens of a text end one behind the other. -/
theorem pairwise_stop_scan (source : String) :
    (scan source).Pairwise fun t u => t.span.stop < u.span.stop := by
  have behind : (scan source).Pairwise fun t u => t.span.stop ≤ u.span.start := by
    rw [scan, scanFrom_eq_place]
    exact pairwise_place 0 _
  refine behind.imp_of_mem fun {t u} _ mem before => ?_
  exact Nat.lt_of_le_of_lt before (start_lt_stop mem)

/-- Only one token of a text ends at a byte offset. -/
theorem place_unique_of_stop {source : String} {i j : Nat} {t u : Token}
    (found : (scan source)[i]? = some t) (found' : (scan source)[j]? = some u)
    (same : t.span.stop = u.span.stop) : i = j := by
  obtain ⟨lt, rfl⟩ := List.getElem?_eq_some_iff.1 found
  obtain ⟨lt', rfl⟩ := List.getElem?_eq_some_iff.1 found'
  have order := List.pairwise_iff_getElem.1 (pairwise_stop_scan source)
  rcases Nat.lt_trichotomy i j with before | same' | behind
  · have := order i j lt lt' before
    omega
  · exact same'
  · have := order j i lt' lt behind
    omega

end Token

/-- A token that is no bracket leaves the stack as it is. -/
theorem Reader.openAt_of_not_bracket {ts : List Token} {n : Nat} {t : Token}
    (found : ts[n]? = some t) (opener : ∀ b, t.kind ≠ .opener b)
    (closer : ∀ b, t.kind ≠ .closer b) : openAt ts (n + 1) = openAt ts n := by
  rw [openAt, found, Option.map_some]
  split
  · next b kind => exact absurd (Option.some.inj kind) (opener b)
  · next b kind => exact absurd (Option.some.inj kind) (closer b)
  · rfl

namespace Reader.Pairs

variable {ts : List Token} {i j k : Nat} {b b' c c' : Bracket}

/-- The stack is not empty at the closing bracket of a pair. -/
theorem openAt_ne_nil (pair : Pairs ts i j b b') : openAt ts j ≠ [] := by
  intro empty
  have top := pair.top
  rw [empty] at top
  cases top

/-- Two pairs with one closing bracket are the same. -/
theorem eq_of_closer (pair : Pairs ts i k b b') (pair' : Pairs ts j k c c') :
    i = j ∧ b = c ∧ b' = c' := by
  obtain rfl : i = j := Option.some.inj (pair.top.symm.trans pair'.top)
  have opener := pair.opener.symm.trans pair'.opener
  have closer := pair.closer.symm.trans pair'.closer
  simp_all

/-- Two pairs with one opening bracket are the same. -/
theorem eq_of_opener (pair : Pairs ts i j b b') (pair' : Pairs ts i k c c') :
    j = k ∧ b = c ∧ b' = c' := by
  obtain rfl := pair.unique pair'
  exact ⟨rfl, (pair.eq_of_closer pair').2⟩

end Reader.Pairs

namespace Highlight

/-! ## Colours by the stack -/

section Stack

variable (ts : List Token) (cursor : Nat)

/-- The token at the place ends at the cursor. -/
def EndsAt (i : Nat) : Prop := ts[i]?.map (·.span.stop) = some cursor

/-- One of the brackets at two places ends at the cursor. -/
def AtCursor (i j : Nat) : Prop := EndsAt ts cursor i ∨ EndsAt ts cursor j

/-- The closing bracket at place `k` gives the bracket at a place its colour: to itself, or to the
opening bracket that it pops. -/
inductive Colored (k : Nat) : Nat → Color → Prop
  | stray {b : Bracket} : ts[k]?.map Token.kind = some (.closer b) → openAt ts k = [] →
    Colored k k .red
  | crossedCloser {i : Nat} {b b' : Bracket} : Pairs ts i k b b' → b ≠ b' → Colored k k .red
  | crossedOpener {i : Nat} {b b' : Bracket} : Pairs ts i k b b' → b ≠ b' → Colored k i .boldRed
  | closer {i : Nat} {b : Bracket} : Pairs ts i k b b → AtCursor ts cursor i k →
    Colored k k .blue
  | opener {i : Nat} {b : Bracket} : Pairs ts i k b b → AtCursor ts cursor i k →
    Colored k i .boldBlue

end Stack

variable {ts rest : List Token} {cursor i k n : Nat} {b b' : Bracket} {c c' : Color}
  {t u opener closer : Token} {opened : List (Bracket × Token)}

/-- Where a token stands, it ends at the cursor if its span does. -/
theorem endsAt_iff (found : ts[i]? = some t) : EndsAt ts cursor i ↔ t.span.stop = cursor := by
  rw [EndsAt, found, Option.map_some, Option.some.injEq]

/-- Only a closing bracket gives colours. -/
theorem Colored.exists_closer (colored : Colored ts cursor k i c) :
    ∃ b, ts[k]?.map Token.kind = some (.closer b) := by
  cases colored with
  | stray kind _ => exact ⟨_, kind⟩
  | crossedCloser pair _ | crossedOpener pair _ | closer pair _ | opener pair _ =>
    exact ⟨_, pair.closer⟩

/-- **The colours of a closing bracket**, from whatever bracket. -/
theorem colored_closer_iff (kind : ts[i]?.map Token.kind = some (.closer b)) :
    (∃ k, Colored ts cursor k i c) ↔
      c = .red ∧ (openAt ts i = [] ∨ ∃ j b', Pairs ts j i b' b ∧ b' ≠ b) ∨
        c = .blue ∧ ∃ j, Pairs ts j i b b ∧ AtCursor ts cursor j i := by
  constructor
  · rintro ⟨k, colored⟩
    cases colored with
    | stray _ empty => exact .inl ⟨rfl, .inl empty⟩
    | crossedCloser pair differ =>
      cases kind.symm.trans pair.closer
      exact .inl ⟨rfl, .inr ⟨_, _, pair, differ⟩⟩
    | closer pair ends =>
      cases kind.symm.trans pair.closer
      exact .inr ⟨rfl, _, pair, ends⟩
    | crossedOpener pair _ | opener pair _ => cases kind.symm.trans pair.opener
  · rintro (⟨rfl, empty | ⟨j, b', pair, differ⟩⟩ | ⟨rfl, j, pair, ends⟩)
    · exact ⟨i, .stray kind empty⟩
    · exact ⟨i, .crossedCloser pair differ⟩
    · exact ⟨i, .closer pair ends⟩

/-- **The colours of an opening bracket**, from whatever bracket. -/
theorem colored_opener_iff (kind : ts[i]?.map Token.kind = some (.opener b)) :
    (∃ k, Colored ts cursor k i c) ↔
      c = .boldRed ∧ (∃ j b', Pairs ts i j b b' ∧ b ≠ b') ∨
        c = .boldBlue ∧ ∃ j, Pairs ts i j b b ∧ AtCursor ts cursor i j := by
  constructor
  · rintro ⟨k, colored⟩
    cases colored with
    | stray closes _ => cases kind.symm.trans closes
    | crossedCloser pair _ | closer pair _ => cases kind.symm.trans pair.closer
    | crossedOpener pair differ =>
      cases kind.symm.trans pair.opener
      exact .inl ⟨rfl, _, _, pair, differ⟩
    | opener pair ends =>
      cases kind.symm.trans pair.opener
      exact .inr ⟨rfl, _, pair, ends⟩
  · rintro (⟨rfl, j, b', pair, differ⟩ | ⟨rfl, j, pair, ends⟩)
    · exact ⟨j, .crossedOpener pair differ⟩
    · exact ⟨j, .opener pair ends⟩

/-- Only brackets get colours. -/
theorem Colored.exists_bracket (colored : Colored ts cursor k i c) :
    (∃ b, ts[i]?.map Token.kind = some (.closer b)) ∨
      ∃ b, ts[i]?.map Token.kind = some (.opener b) := by
  cases colored with
  | stray kind _ => exact .inl ⟨_, kind⟩
  | crossedCloser pair _ | closer pair _ => exact .inl ⟨_, pair.closer⟩
  | crossedOpener pair _ | opener pair _ => exact .inr ⟨_, pair.opener⟩

/-- **One colour for one place**: a closing bracket pops once, and an opening one is popped once. -/
theorem Colored.unique (colored : Colored ts cursor k i c) (colored' : Colored ts cursor n i c') :
    c = c' := by
  rcases colored.exists_bracket with ⟨b, kind⟩ | ⟨b, kind⟩
  · have stray {j : Nat} (pair : Pairs ts j i b b) :
        ¬ (openAt ts i = [] ∨ ∃ j b', Pairs ts j i b' b ∧ b' ≠ b) := by
      rintro (empty | ⟨j', b', pair', differ⟩)
      · exact pair.openAt_ne_nil empty
      · exact differ (pair'.eq_of_closer pair).2.1
    rcases (colored_closer_iff kind).1 ⟨k, colored⟩ with ⟨rfl, wrong⟩ | ⟨rfl, j, pair, -⟩ <;>
      rcases (colored_closer_iff kind).1 ⟨n, colored'⟩ with ⟨rfl, wrong'⟩ | ⟨rfl, j', pair', -⟩
    · rfl
    · exact absurd wrong (stray pair')
    · exact absurd wrong' (stray pair)
    · rfl
  · have crossed {j : Nat} (pair : Pairs ts i j b b) : ¬ ∃ j b', Pairs ts i j b b' ∧ b ≠ b' := by
      rintro ⟨j', b', pair', differ⟩
      exact differ (pair.eq_of_opener pair').2.2
    rcases (colored_opener_iff kind).1 ⟨k, colored⟩ with ⟨rfl, wrong⟩ | ⟨rfl, j, pair, -⟩ <;>
      rcases (colored_opener_iff kind).1 ⟨n, colored'⟩ with ⟨rfl, wrong'⟩ | ⟨rfl, j', pair', -⟩
    · rfl
    · exact absurd wrong (crossed pair')
    · exact absurd wrong' (crossed pair)
    · rfl

/-! ## The scan makes these marks -/

/-- The opening bracket stands at the place. -/
def IsOpener (ts : List Token) (i : Nat) (entry : Bracket × Token) : Prop :=
  ts[i]? = some entry.2 ∧ entry.2.kind = .opener entry.1

/-- The open brackets are those of the stack. -/
def IsStack (ts : List Token) (n : Nat) (opened : List (Bracket × Token)) : Prop :=
  List.Forall₂ (IsOpener ts) (openAt ts n) opened

/-- The marks of a pair are its colours. -/
theorem mem_pairMarks (pair : Pairs ts i k b b') (foundOpener : ts[i]? = some opener)
    (found : ts[k]? = some closer) :
    (u, c) ∈ pairMarks cursor b b' opener closer ↔
      ∃ j, ts[j]? = some u ∧ Colored ts cursor k j c := by
  have ends : AtCursor ts cursor i k ↔
      closer.span.stop = cursor ∨ opener.span.stop = cursor := by
    rw [AtCursor, endsAt_iff foundOpener, endsAt_iff found, or_comm]
  unfold pairMarks
  constructor
  · intro mem
    split at mem
    · next same =>
      subst same
      split at mem
      · next atCursor =>
        simp only [List.mem_cons, List.not_mem_nil, or_false] at mem
        rcases mem with mark | mark <;> cases mark
        · exact ⟨k, found, .closer pair (ends.2 atCursor)⟩
        · exact ⟨i, foundOpener, .opener pair (ends.2 atCursor)⟩
      · cases mem
    · next differ =>
      simp only [List.mem_cons, List.not_mem_nil, or_false] at mem
      rcases mem with mark | mark <;> cases mark
      · exact ⟨k, found, .crossedCloser pair differ⟩
      · exact ⟨i, foundOpener, .crossedOpener pair differ⟩
  · rintro ⟨j, place, colored⟩
    cases colored with
    | stray _ empty => exact absurd empty pair.openAt_ne_nil
    | crossedCloser pair' differ =>
      obtain ⟨rfl, rfl, rfl⟩ := pair.eq_of_closer pair'
      cases place.symm.trans found
      simp [differ]
    | crossedOpener pair' differ =>
      obtain ⟨rfl, rfl, rfl⟩ := pair.eq_of_closer pair'
      cases place.symm.trans foundOpener
      simp [differ]
    | closer pair' atCursor =>
      obtain ⟨rfl, rfl, rfl⟩ := pair.eq_of_closer pair'
      cases place.symm.trans found
      simp [ends.1 atCursor]
    | opener pair' atCursor =>
      obtain ⟨rfl, rfl, rfl⟩ := pair.eq_of_closer pair'
      cases place.symm.trans foundOpener
      simp [ends.1 atCursor]

/-- A token that does not close anything makes no marks. -/
theorem not_colored (found : ts[n]? = some t) (closer : ∀ b, t.kind ≠ .closer b) :
    ¬ ∃ i, ts[i]? = some u ∧ Colored ts cursor n i c := by
  rintro ⟨i, -, colored⟩
  obtain ⟨b, kind⟩ := colored.exists_closer
  rw [found, Option.map_some, Option.some.injEq] at kind
  exact closer b kind

/-- **One token.** The marks that a token makes are the colours that it gives, and the open brackets
after it are those of the stack. -/
theorem exists_marksFrom_cons (found : ts[n]? = some t) (stack : IsStack ts n opened) :
    ∃ made opened', marksFrom cursor opened (t :: rest) = made ++ marksFrom cursor opened' rest ∧
      IsStack ts (n + 1) opened' ∧
      ∀ u c, (u, c) ∈ made ↔ ∃ i, ts[i]? = some u ∧ Colored ts cursor n i c := by
  have silent (closer : ∀ b, t.kind ≠ .closer b) (u : Token) (c : Color) :
      (u, c) ∈ ([] : List Mark) ↔ ∃ i, ts[i]? = some u ∧ Colored ts cursor n i c :=
    iff_of_false List.not_mem_nil (not_colored found closer)
  have other (opener : ∀ b, t.kind ≠ .opener b) (closer : ∀ b, t.kind ≠ .closer b) :
      IsStack ts (n + 1) opened := by
    rwa [IsStack, openAt_of_not_bracket found opener closer]
  rw [marksFrom.eq_def]
  dsimp only
  cases kind : t.kind with
  | opener b =>
    refine ⟨[], (b, t) :: opened, rfl, ?_, silent (by rw [kind]; nofun)⟩
    rw [IsStack, openAt_opener found kind]
    exact .cons ⟨found, kind⟩ stack
  | closer b =>
    have closes : ts[n]?.map Token.kind = some (.closer b) := by rw [found, Option.map_some, kind]
    have popped (outer : List (Bracket × Token)) : IsStack ts (n + 1) outer ↔
        List.Forall₂ (IsOpener ts) (openAt ts n).tail outer := by
      rw [IsStack, openAt_closer found kind]
    cases stack' : openAt ts n with
    | nil =>
      rw [IsStack, stack'] at stack
      cases stack
      refine ⟨[(t, .red)], [], rfl, (popped []).2 (by rw [stack']; exact .nil), fun u c => ?_⟩
      rw [List.mem_singleton]
      constructor
      · intro mark
        cases mark
        exact ⟨n, found, .stray closes stack'⟩
      · rintro ⟨i, place, colored⟩
        cases colored with
        | stray _ _ => rw [Option.some.inj (found.symm.trans place)]
        | crossedCloser pair _ | crossedOpener pair _ | closer pair _ | opener pair _ =>
          exact absurd stack' pair.openAt_ne_nil
    | cons i outer =>
      rw [IsStack, stack'] at stack
      obtain _ | @⟨_, ⟨bracket, opener⟩, _, opened', ⟨foundOpener, opens⟩, below⟩ := stack
      have pair : Pairs ts i n bracket b :=
        ⟨by rw [foundOpener, Option.map_some, opens], closes, by rw [stack', List.head?_cons]⟩
      exact ⟨_, opened', rfl, (popped opened').2 (by rw [stack']; exact below),
        fun u c => mem_pairMarks pair foundOpener found⟩
  | _ => exact ⟨[], opened, rfl, other (by rw [kind]; nofun) (by rw [kind]; nofun),
      silent (by rw [kind]; nofun)⟩

/-- **The scan makes the marks of the stack**, and no others. -/
theorem mem_marksFrom (stack : IsStack ts n opened) :
    (t, c) ∈ marksFrom cursor opened (ts.drop n) ↔
      ∃ k i, n ≤ k ∧ ts[i]? = some t ∧ Colored ts cursor k i c := by
  induction whole : ts.drop n generalizing n opened with
  | nil =>
    rw [List.drop_eq_nil_iff] at whole
    refine iff_of_false List.not_mem_nil ?_
    rintro ⟨k, i, le, -, colored⟩
    obtain ⟨b, kind⟩ := colored.exists_closer
    rw [List.getElem?_eq_none (Nat.le_trans whole le)] at kind
    cases kind
  | cons u rest ih =>
    -- the colours from place `n` on are those that this token gives and those from `n + 1` on
    have found : ts[n]? = some u := by rw [← List.head?_drop, whole, List.head?_cons]
    have later : ts.drop (n + 1) = rest := by
      rw [← List.drop_drop, whole, List.drop_one, List.tail_cons]
    obtain ⟨made, opened', marks, stack', gives⟩ := exists_marksFrom_cons found stack
    rw [marks, List.mem_append, gives, ih stack' later]
    constructor
    · rintro (⟨i, place, colored⟩ | ⟨k, i, le, place, colored⟩)
      · exact ⟨n, i, Nat.le_refl n, place, colored⟩
      · exact ⟨k, i, Nat.le_of_succ_le le, place, colored⟩
    · rintro ⟨k, i, le, place, colored⟩
      rcases Nat.eq_or_lt_of_le le with rfl | lt
      · exact .inl ⟨i, place, colored⟩
      · exact .inr ⟨k, i, lt, place, colored⟩

/-! ## The colour that is shown -/

/-- A token that has no colour by its kind has that of its mark, if its marks have one. -/
theorem color?_eq_some_iff {marks : List Mark} (plain : kindColor? t = none)
    (one : ∀ c c', (t, c) ∈ marks → (t, c') ∈ marks → c = c') :
    color? marks t = some c ↔ (t, c) ∈ marks := by
  unfold color?
  split
  · next mark last =>
    obtain ⟨u, c'⟩ := mark
    have mem := List.mem_reverse.1 (List.mem_of_find?_eq_some last)
    have same := List.find?_some last
    obtain rfl : u = t := of_decide_eq_true same
    rw [Option.some.injEq]
    constructor
    · rintro rfl
      exact mem
    · exact one c' c mem
  · next unmarked =>
    rw [plain]
    refine iff_of_false nofun fun mem => ?_
    have other := List.find?_eq_none.1 unmarked _ (List.mem_reverse.2 mem)
    exact other (decide_eq_true rfl)

/-- The marks of the token at a place of a text are its colours: it stands in no other place. -/
theorem mem_marks {source : String} (found : (scan source)[i]? = some t) :
    (t, c) ∈ marksFrom cursor [] (scan source) ↔ ∃ k, Colored (scan source) cursor k i c := by
  have start : IsStack (scan source) 0 [] := .nil
  rw [← List.drop_zero (l := scan source), mem_marksFrom start, List.drop_zero]
  constructor
  · rintro ⟨k, j, -, found', colored⟩
    obtain rfl := Token.place_unique_of_stop found found' rfl
    exact ⟨k, colored⟩
  · rintro ⟨k, colored⟩
    exact ⟨k, i, Nat.zero_le k, found, colored⟩

/-- A token that opens or closes a group. -/
def IsBracket (t : Token) : Prop := ∃ b, t.kind = .opener b ∨ t.kind = .closer b

/-- A bracket has no colour by its kind. -/
theorem kindColor?_of_bracket (bracket : IsBracket t) : kindColor? t = none := by
  obtain ⟨b, kind | kind⟩ := bracket <;> rw [kindColor?, kind]

/-- **A bracket is shown in its colour by the stack.** -/
theorem color?_of_bracket {source : String} (found : (scan source)[i]? = some t)
    (bracket : IsBracket t) :
    color? (marksFrom cursor [] (scan source)) t = some c ↔
      ∃ k, Colored (scan source) cursor k i c := by
  rw [color?_eq_some_iff (kindColor?_of_bracket bracket), mem_marks found]
  intro c c' mem mem'
  obtain ⟨k, colored⟩ := (mem_marks found).1 mem
  obtain ⟨k', colored'⟩ := (mem_marks found).1 mem'
  exact colored.unique colored'

/-- The code of the colour of a token. -/
def code? (source : String) (cursor : Nat) (t : Token) : Option String :=
  (color? (marksFrom cursor [] (scan source)) t).map Color.code

/-- Each colour has its own code. -/
theorem code_injective : Function.Injective Color.code := by
  intro c c'
  cases c <;> cases c' <;> decide

/-- A bracket is shown with the code of its colour by the stack. -/
theorem code?_of_bracket {source : String} (found : (scan source)[i]? = some t)
    (bracket : IsBracket t) :
    code? source cursor t = some c.code ↔ ∃ k, Colored (scan source) cursor k i c := by
  rw [code?, Option.map_eq_some_iff, ← color?_of_bracket found bracket]
  constructor
  · rintro ⟨c', shown, same⟩
    rwa [← code_injective same]
  · exact fun shown => ⟨c, shown, rfl⟩

/-! ## The text that is shown -/

/-- What a highlighted text is made of: parts of the text, and escape sequences put in between. -/
inductive Chunk where
  | source (text : String)
  | escape (code : String)

/-- The text of a chunk at the terminal. -/
def Chunk.shown : Chunk → String
  | .source text => text
  | .escape code => "\x1b[" ++ code ++ "m"

/-- The text of a chunk without escape sequences. -/
def Chunk.kept : Chunk → String
  | .source text => text
  | .escape _ => ""

/-- The chunks of a token: its text, between a code and the code for none if it has a colour. -/
def chunksOf (source : String) (cursor : Nat) (t : Token) : List Chunk :=
  match code? source cursor t with
  | some code => [.escape code, .source t.text, .escape "0"]
  | none => [.source t.text]

/-- The chunks of a highlighted text. -/
def chunks (source : String) (cursor : Nat) : List Chunk :=
  (scan source).flatMap (chunksOf source cursor)

/-- A text made of parts made of parts. -/
theorem join_map_flatMap {α β : Type} (parts : α → List β) (text : β → String) (xs : List α) :
    String.join ((xs.flatMap parts).map text) =
      String.join (xs.map fun x => String.join ((parts x).map text)) := by
  induction xs with
  | nil => rfl
  | cons x xs ih =>
    rw [List.flatMap_cons, List.map_append, String.join_append, ih, List.map_cons, String.join_cons]

/-- The chunks are what is shown. -/
theorem join_shown (source : String) (cursor : Nat) :
    String.join ((chunks source cursor).map Chunk.shown) = render source cursor := by
  rw [chunks, join_map_flatMap, render]
  congr 1
  refine List.map_congr_left fun t _ => ?_
  rw [paintToken, chunksOf, code?]
  cases color? (marksFrom cursor [] (scan source)) t with
  | none => simp [Chunk.shown, String.join_cons]
  | some c =>
    simp [Chunk.shown, String.join_cons, Color.paint, String.append_assoc]

/-- Without the escape sequences, the chunks are the text. -/
theorem join_kept (source : String) (cursor : Nat) :
    String.join ((chunks source cursor).map Chunk.kept) = source := by
  have whole : String.join ((scan source).map (·.text)) = source := Token.concat_scan source
  rw [chunks, join_map_flatMap]
  refine Eq.trans ?_ whole
  congr 1
  refine List.map_congr_left fun t _ => ?_
  rw [chunksOf]
  cases code? source cursor t <;> simp [Chunk.kept, String.join_cons]

/-! ## Red brackets and the verdict -/

/-- The colours of brackets that are wrong. -/
def IsWrong (c : Color) : Prop := c = .red ∨ c = .boldRed

/-- The marks of a pair are wrong where its kinds differ. -/
theorem exists_wrong_pairMarks :
    (∃ t c, (t, c) ∈ pairMarks cursor b b' opener closer ∧ IsWrong c) ↔ b ≠ b' := by
  unfold pairMarks
  split
  · next same =>
    refine iff_of_false ?_ (not_not_intro same)
    rintro ⟨t, c, mem, wrong⟩
    split at mem
    · simp only [List.mem_cons, List.not_mem_nil, or_false] at mem
      rcases mem with mark | mark <;> cases mark <;> rcases wrong with wrong | wrong <;> cases wrong
    · cases mem
  · next differ => exact iff_of_true ⟨closer, .red, List.mem_cons_self, .inl rfl⟩ differ

/-- Some mark in a list of two parts is wrong. -/
theorem exists_wrong_append {marks more : List Mark} :
    (∃ t c, (t, c) ∈ marks ++ more ∧ IsWrong c) ↔
      (∃ t c, (t, c) ∈ marks ∧ IsWrong c) ∨ ∃ t c, (t, c) ∈ more ∧ IsWrong c := by
  simp only [List.mem_append, or_and_right, exists_or]

open Entry in
/-- **A bracket is marked as wrong where the verdict is**, if no double quote is open. -/
theorem exists_wrong_iff (quotes : ∀ t ∈ ts, isLoneQuote t = false) :
    (∃ t c, (t, c) ∈ marksFrom cursor opened ts ∧ IsWrong c) ↔
      ∃ fault, verdictFrom (opened.map Prod.fst) ts = .wrong fault := by
  induction ts generalizing opened with
  | nil =>
    refine iff_of_false (fun ⟨_, _, mem, _⟩ => List.not_mem_nil mem) ?_
    rintro ⟨fault, h⟩
    rw [verdictFrom] at h
    split at h <;> cases h
  | cons t ts ih =>
    obtain ⟨quote, quotes⟩ := List.forall_mem_cons.1 quotes
    rw [marksFrom.eq_def, verdictFrom.eq_def]
    dsimp only
    cases kind : t.kind with
    | opener b => exact ih quotes
    | closer b =>
      cases opened with
      | nil => exact iff_of_true ⟨t, .red, List.mem_cons_self, .inl rfl⟩ ⟨_, rfl⟩
      | cons entry outer =>
        obtain ⟨innermost, opener⟩ := entry
        show _ ↔ ∃ fault, (if innermost = b then verdictFrom (outer.map Prod.fst) ts else
          .wrong (.crossed b innermost t.span.start)) = .wrong fault
        rw [exists_wrong_append, exists_wrong_pairMarks, ih quotes]
        by_cases same : innermost = b
        · rw [if_pos same, or_iff_right (not_not_intro same)]
        · -- the verdict stops here, and of what the scan still marks nothing matters
          rw [if_neg same]
          exact iff_of_true (.inl same) ⟨_, rfl⟩
    | _ =>
      dsimp only
      rw [quote]
      exact ih quotes

/-! ## The brackets of a text -/

section Text

variable {source : String}

/-- The codes of a closing bracket. -/
theorem code?_of_closer (cursor : Nat) (c : Color) (found : (scan source)[i]? = some t)
    (kind : t.kind = .closer b) :
    code? source cursor t = some c.code ↔
      c = .red ∧ (openAt (scan source) i = [] ∨
          ∃ j b', Pairs (scan source) j i b' b ∧ b' ≠ b) ∨
        c = .blue ∧ ∃ j, Pairs (scan source) j i b b ∧
          AtCursor (scan source) cursor j i := by
  rw [code?_of_bracket found ⟨b, .inr kind⟩, colored_closer_iff]
  rw [found, Option.map_some, kind]

/-- The codes of an opening bracket. -/
theorem code?_of_opener (cursor : Nat) (c : Color) (found : (scan source)[i]? = some t)
    (kind : t.kind = .opener b) :
    code? source cursor t = some c.code ↔
      c = .boldRed ∧ (∃ j b', Pairs (scan source) i j b b' ∧ b ≠ b') ∨
        c = .boldBlue ∧ ∃ j, Pairs (scan source) i j b b ∧
          AtCursor (scan source) cursor i j := by
  rw [code?_of_bracket found ⟨b, .inl kind⟩, colored_opener_iff]
  rw [found, Option.map_some, kind]

/-- A token has no code, or that of some colour. -/
theorem code?_cases (source : String) (cursor : Nat) (t : Token) :
    code? source cursor t = none ∨ ∃ c : Color, code? source cursor t = some c.code := by
  rw [code?]
  cases color? (marksFrom cursor [] (scan source)) t with
  | none => exact .inl rfl
  | some c => exact .inr ⟨c, rfl⟩

/-- Only one token of a text ends at the cursor. -/
theorem EndsAt.unique (ends : EndsAt (scan source) cursor i)
    (ends' : EndsAt (scan source) cursor k) : i = k := by
  obtain ⟨t, found, stop⟩ := Option.map_eq_some_iff.1 ends
  obtain ⟨t', found', stop'⟩ := Option.map_eq_some_iff.1 ends'
  exact Token.place_unique_of_stop found found' (stop.trans stop'.symm)

/-- **At most one pair is at the cursor.** -/
theorem pair_unique_of_endsAt {j l : Nat} (pair : Pairs (scan source) i j b b)
    (ends : AtCursor (scan source) cursor i j)
    (pair' : Pairs (scan source) k l b' b')
    (ends' : AtCursor (scan source) cursor k l) :
    i = k ∧ j = l := by
  rcases ends with ends | ends <;> rcases ends' with ends' | ends' <;>
    obtain rfl := ends.unique ends'
  · exact ⟨rfl, pair.unique pair'⟩
  · cases pair.opener.symm.trans pair'.closer
  · cases pair.closer.symm.trans pair'.opener
  · exact ⟨(pair.eq_of_closer pair').1, rfl⟩

/-- The tokens that are marked are brackets of the text. -/
theorem isBracket_of_mem_marks (mem : (t, c) ∈ marksFrom cursor [] (scan source)) :
    t ∈ scan source ∧ IsBracket t := by
  have start : IsStack (scan source) 0 [] := .nil
  rw [← List.drop_zero (l := scan source)] at mem
  obtain ⟨k, i, -, found, colored⟩ := (mem_marksFrom start).1 mem
  have bracket := colored.exists_bracket
  rw [found, Option.map_some] at bracket
  refine ⟨List.mem_of_getElem? found, ?_⟩
  rcases bracket with ⟨b, kind⟩ | ⟨b, kind⟩
  · exact ⟨b, .inr (Option.some.inj kind)⟩
  · exact ⟨b, .inl (Option.some.inj kind)⟩

/-- A bracket is shown in a colour if it is marked in this colour. -/
theorem exists_code?_iff (c : Color) :
    (∃ t ∈ scan source, IsBracket t ∧ code? source cursor t = some c.code) ↔
      ∃ t, (t, c) ∈ marksFrom cursor [] (scan source) := by
  constructor
  · rintro ⟨t, mem, bracket, code⟩
    obtain ⟨i, found⟩ := List.mem_iff_getElem?.1 mem
    exact ⟨t, (mem_marks found).2 ((code?_of_bracket found bracket).1 code)⟩
  · rintro ⟨t, marked⟩
    obtain ⟨mem, bracket⟩ := isBracket_of_mem_marks marked
    obtain ⟨i, found⟩ := List.mem_iff_getElem?.1 mem
    exact ⟨t, mem, bracket, (code?_of_bracket found bracket).2 ((mem_marks found).1 marked)⟩

/-- A bracket is shown as wrong where the verdict is, if no double quote is open. -/
theorem exists_wrong_code_iff (quotes : ∀ t ∈ scan source, Entry.isLoneQuote t = false) :
    (∃ t ∈ scan source, IsBracket t ∧
        (code? source cursor t = some "31" ∨ code? source cursor t = some "1;31")) ↔
      ∃ fault, Entry.verdict source = .wrong fault := by
  have marked : (∃ t c, (t, c) ∈ marksFrom cursor [] (scan source) ∧ IsWrong c) ↔
      ∃ fault, Entry.verdict source = .wrong fault := exists_wrong_iff quotes
  rw [← marked]
  simp only [and_or_left, exists_or, IsWrong, exists_eq_right]
  exact or_congr (exists_code?_iff .red) (exists_code?_iff .boldRed)

end Text

/-- **Highlighting shows the text and its brackets.** A highlighted text is the text with escape
sequences put in. A closing bracket is red if the stack is empty there, or if it pops a bracket of
another kind, and an opening bracket is bold and red if one of another kind pops it. A pair of one
kind is blue if one of its brackets ends at the cursor, as at most one pair does, and all other
brackets are plain. Where no double quote is open, some bracket is red or bold and red if and only
if the verdict on the text as an entry is that it is wrong. -/
theorem render_shows_brackets (source : String) (cursor : Nat) :
    String.join ((chunks source cursor).map Chunk.shown) = render source cursor ∧
    String.join ((chunks source cursor).map Chunk.kept) = source ∧
    (∀ i t b, (scan source)[i]? = some t → t.kind = .closer b →
      (code? source cursor t = some "31" ↔
        openAt (scan source) i = [] ∨ ∃ j b', Pairs (scan source) j i b' b ∧ b' ≠ b) ∧
      (code? source cursor t = some "34" ↔
        ∃ j, Pairs (scan source) j i b b ∧ AtCursor (scan source) cursor j i) ∧
      code? source cursor t ∈ [none, some "31", some "34"]) ∧
    (∀ i t b, (scan source)[i]? = some t → t.kind = .opener b →
      (code? source cursor t = some "1;31" ↔ ∃ j b', Pairs (scan source) i j b b' ∧ b ≠ b') ∧
      (code? source cursor t = some "1;34" ↔
        ∃ j, Pairs (scan source) i j b b ∧ AtCursor (scan source) cursor i j) ∧
      code? source cursor t ∈ [none, some "1;31", some "1;34"]) ∧
    (∀ i j k l b b', Pairs (scan source) i j b b → AtCursor (scan source) cursor i j →
      Pairs (scan source) k l b' b' → AtCursor (scan source) cursor k l → i = k ∧ j = l) ∧
    ((∀ t ∈ scan source, Entry.isLoneQuote t = false) →
      ((∃ t ∈ scan source, IsBracket t ∧
          (code? source cursor t = some "31" ∨ code? source cursor t = some "1;31")) ↔
        ∃ fault, Entry.verdict source = .wrong fault)) := by
  refine ⟨join_shown source cursor, join_kept source cursor, ?_, ?_,
    fun _ _ _ _ _ _ pair ends pair' ends' => pair_unique_of_endsAt pair ends pair' ends',
    exists_wrong_code_iff⟩
  · intro i t b found kind
    have codes (c : Color) := code?_of_closer cursor c found kind
    refine ⟨(codes .red).trans (by simp), (codes .blue).trans (by simp), ?_⟩
    rcases code?_cases source cursor t with plain | ⟨c, code⟩
    · simp [plain]
    · rcases (codes c).1 code with ⟨rfl, -⟩ | ⟨rfl, -⟩ <;> simp [code, Color.code]
  · intro i t b found kind
    have codes (c : Color) := code?_of_opener cursor c found kind
    refine ⟨(codes .boldRed).trans (by simp), (codes .boldBlue).trans (by simp), ?_⟩
    rcases code?_cases source cursor t with plain | ⟨c, code⟩
    · simp [plain]
    · rcases (codes c).1 code with ⟨rfl, -⟩ | ⟨rfl, -⟩ <;> simp [code, Color.code]

example : (scan "\x7b(x]\x7d").map (code? "\x7b(x]\x7d" 5) =
    [some "1;34", some "1;31", none, some "31", some "34"] := by decide +kernel

end Highlight

end Tyro
