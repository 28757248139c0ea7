import Tyro.Proofs.Token.Written
import Tyro.Sexp.Read

/-!
# Texts that spell an S-expression

* `Reader.feed` is the reader without its end: the groups that are open after tokens, and the data
  completed on the way. `run_append` says that the reader goes on from there.
* `Reader.Reads ts sexp`: the tokens are read as the S-expression wherever they stand, inside any
  groups. `ReadsItems ts items` says the same of several S-expressions inside a group.
* `Sexp.Spells cs sexp`: the text is read as the S-expression in front of everything that ends a
  word. Texts that spell S-expressions are put together to a text that spells their list
  (`Spells.list`), and `Spells.ofText` reads a text that spells one S-expression.
-/

namespace Tyro

namespace Reader

/-! ## The reader without its end -/

/-- The groups that are open after tokens, and the data completed on the way. -/
def feed (groups : List Group) : List Token → List Group × List Datum
  | [] => (groups, [])
  | t :: ts =>
    ((feed (step groups t).1 ts).1, (step groups t).2.toList ++ (feed (step groups t).1 ts).2)

/-- The reader takes tokens one list after the other. -/
theorem feed_append (groups : List Group) (ts us : List Token) :
    feed groups (ts ++ us) =
      ((feed (feed groups ts).1 us).1, (feed groups ts).2 ++ (feed (feed groups ts).1 us).2) := by
  induction ts generalizing groups with
  | nil => rfl
  | cons t ts ih => simp only [List.cons_append, feed, ih, List.append_assoc]

/-- A run goes on from the groups that are open after its first tokens. -/
theorem run_append (groups : List Group) (ts us : List Token) :
    run groups (ts ++ us) = (feed groups ts).2 ++ run (feed groups ts).1 us := by
  induction ts generalizing groups with
  | nil => rfl
  | cons t ts ih => simp only [List.cons_append, run, feed, ih, List.append_assoc]

/-- A run gives what is completed on the way and what is left at the end. -/
theorem run_eq_feed (groups : List Group) (ts : List Token) :
    run groups ts = (feed groups ts).2 ++ (finish (feed groups ts).1).toList := by
  have := run_append groups ts []
  rwa [List.append_nil, run] at this

/-! ## Tokens that are read as given S-expressions -/

/-- The tokens are read as the S-expression, whatever groups are open. -/
def Reads (ts : List Token) (sexp : Sexp) : Prop :=
  ∀ groups, feed groups ts =
    ((deliver sexp ts.reverse groups).1, (deliver sexp ts.reverse groups).2.toList)

/-- The tokens are read as the S-expressions, inside any group. -/
def ReadsItems (ts : List Token) (items : List Sexp) : Prop :=
  ∀ g outer, feed (g :: outer) ts =
    (⟨g.bracket, ts.reverse ++ g.tokens, items.reverse ++ g.items⟩ :: outer, [])

/-- No tokens are read as no S-expressions. -/
theorem readsItems_nil : ReadsItems [] [] := fun _ _ => rfl

/-- S-expressions are read one after the other. -/
theorem ReadsItems.append {ts us : List Token} {items others : List Sexp}
    (h : ReadsItems ts items) (h' : ReadsItems us others) :
    ReadsItems (ts ++ us) (items ++ others) := by
  intro g outer
  rw [feed_append, h g outer, h' _ outer]
  simp

/-- What is read as an S-expression anywhere is read as one inside a group. -/
theorem Reads.items {ts : List Token} {sexp : Sexp} (h : Reads ts sexp) :
    ReadsItems ts [sexp] := by
  intro g outer
  rw [h (g :: outer)]
  rfl

/-- A blank token is read as nothing. -/
theorem readsItems_blank {t : Token} (blank : t.kind = .blank) : ReadsItems [t] [] := by
  intro g outer
  simp [feed, step, blank]

/-- A token that stands for itself is read as its atom. -/
theorem reads_atom {t : Token}
    (kind : t.kind = .number ∨ t.kind = .string ∨ t.kind = .name ∨ t.kind = .boolean) :
    Reads [t] (atom t) := by
  intro groups
  rcases kind with kind | kind | kind | kind <;> simp [feed, step, kind]

/-- Brackets of one kind around tokens that are read as S-expressions are read as their list. -/
theorem ReadsItems.list {opened closed : Token} {bracket : Bracket} {ts : List Token}
    {items : List Sexp} (opens : opened.kind = .opener bracket) (h : ReadsItems ts items)
    (closes : closed.kind = .closer bracket) :
    Reads (opened :: (ts ++ [closed])) (.list items) := by
  intro groups
  have inside := h ⟨bracket, [opened], []⟩ groups
  simp only [feed, step, opens, feed_append, inside, closes]
  simp [Group.close]

end Reader

namespace Sexp

open Token Reader

/-! ## Texts that spell S-expressions -/

/-- In front of everything that ends a word, the text is read as the S-expressions, inside any
group. -/
def SpellsItems (cs : List Char) (items : List Sexp) : Prop :=
  ∃ ps, (∀ rest, Stops rest → pieces (cs ++ rest) = ps ++ pieces rest) ∧
    ∀ offset, ReadsItems (place offset ps) items

/-- In front of everything that ends a word, the text is read as the S-expression. It begins with a
character that is not blank. -/
def Spells (cs : List Char) (sexp : Sexp) : Prop :=
  (∃ c more, cs = c :: more ∧ Text.isBlank c = false) ∧
    ∃ ps, (∀ rest, Stops rest → pieces (cs ++ rest) = ps ++ pieces rest) ∧
      ∀ offset, Reads (place offset ps) sexp

/-- Nothing spells no S-expressions. -/
theorem spellsItems_nil : SpellsItems [] [] :=
  ⟨[], fun _ _ => rfl, fun _ => readsItems_nil⟩

/-- The text of an S-expression, followed by the texts of others that end a word, spells all. -/
theorem Spells.cons {cs ds : List Char} {sexp : Sexp} {items : List Sexp} (h : Spells cs sexp)
    (h' : SpellsItems ds items) (stops : Stops ds) : SpellsItems (cs ++ ds) (sexp :: items) := by
  obtain ⟨-, ps, cut, reads⟩ := h
  obtain ⟨qs, cut', reads'⟩ := h'
  refine ⟨ps ++ qs, fun rest hrest => ?_, fun offset => ?_⟩
  · rw [List.append_assoc, cut _ (stops.append hrest), cut' rest hrest, List.append_assoc]
  · rw [place_append]
    exact (reads offset).items.append (reads' _)

/-- A space may stand in front of the text of an S-expression. -/
theorem Spells.space_cons {cs ds : List Char} {sexp : Sexp} {items : List Sexp}
    (h : Spells cs sexp) (h' : SpellsItems ds items) (stops : Stops ds) :
    SpellsItems (' ' :: (cs ++ ds)) (sexp :: items) := by
  obtain ⟨ps, cut, reads⟩ := h.cons h' stops
  obtain ⟨⟨c, more, rfl, notBlank⟩, -⟩ := h
  refine ⟨⟨.blank, [' ']⟩ :: ps, fun rest hrest => ?_, fun offset => ?_⟩
  · have ends : ∀ d ∈ ((c :: more ++ ds) ++ rest).head?, Text.isBlank d = false := by
      rintro d ⟨⟩
      exact notBlank
    rw [List.cons_append, pieces_space ends, cut rest hrest, List.cons_append]
  · exact (readsItems_blank rfl).append (reads _)

/-- Each of several texts stands after a space. -/
theorem toList_spaced_cons (text : String) (texts : List String) :
    (spaced (text :: texts)).toList = ' ' :: (text.toList ++ (spaced texts).toList) := by
  rw [spaced, List.map_cons, String.join_cons]
  simp [spaced]

/-- Texts that each stand after a space end a word. -/
theorem stops_spaced (texts : List String) : Stops (spaced texts).toList := by
  cases texts with
  | nil => exact stops_nil
  | cons text texts =>
    rw [toList_spaced_cons]
    exact stops_space _

/-- The texts of S-expressions between brackets of one kind spell their list. -/
theorem SpellsItems.list {cs : List Char} {items : List Sexp} (h : SpellsItems cs items)
    (b : Bracket) : Spells (b.opener :: (cs ++ [b.closer])) (.list items) := by
  obtain ⟨ps, cut, reads⟩ := h
  refine ⟨⟨b.opener, cs ++ [b.closer], rfl, by cases b <;> decide⟩,
    ⟨.opener b, [b.opener]⟩ :: (ps ++ [⟨.closer b, [b.closer]⟩]), fun rest _ => ?_,
    fun offset => ?_⟩
  · have close := cut (b.closer :: rest) (stops_closer b rest)
    rw [List.cons_append, List.append_assoc, List.singleton_append, pieces_opener, close,
      pieces_closer]
    simp
  · rw [place, place_append]
    exact (reads _).list rfl rfl

/-- A text that is one token by itself, of one that stands for itself, spells its atom. -/
theorem spells_atom {kind : TokenKind} {cs : List Char} {sexp : Sexp} (h : IsToken kind cs)
    (self : kind = .number ∨ kind = .string ∨ kind = .name ∨ kind = .boolean)
    (value : ∀ span, atom ⟨kind, String.ofList cs, span⟩ = sexp) : Spells cs sexp := by
  have notBlank : kind ≠ .blank := by
    rintro rfl
    simp at self
  have notBad : kind ≠ .bad .unrecognized := by
    rintro rfl
    simp at self
  refine ⟨?_, [⟨kind, cs⟩], fun rest stops => ?_, fun offset => ?_⟩
  · cases cs with
    | nil => exact h.elim
    | cons c more =>
      refine ⟨c, more, rfl, ?_⟩
      cases blank : Text.isBlank c with
      | false => rfl
      | true =>
        have same := (lexeme_of_isBlank blank more).symm.trans h
        exact absurd (congrArg Prod.fst same).symm notBlank
  · exact pieces_append_of_isToken h notBlank notBad stops
  · rw [← value ⟨offset, offset + Text.byteSize cs⟩]
    exact reads_atom self

/-- A text that spells an S-expression is read as it alone. -/
theorem Spells.ofText {text : String} {sexp : Sexp} (h : Spells text.toList sexp) :
    (ofText text).map (·.sexp) = [sexp] := by
  obtain ⟨-, ps, cut, reads⟩ := h
  have whole : pieces text.toList = ps := by
    have := cut [] stops_nil
    rwa [List.append_nil, pieces_nil, List.append_nil] at this
  unfold Sexp.ofText readAll scan
  rw [scanFrom_eq_place, whole, run_eq_feed, reads 0 []]
  rfl

end Sexp

end Tyro
