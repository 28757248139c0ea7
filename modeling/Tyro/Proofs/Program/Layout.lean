import Tyro.Proofs.Prompt.Aligned
import Tyro.Proofs.Sexp.Kinds

/-!
# Layout

A program can be laid out in many ways: with other blanks and comments between its words, and with
other kinds of bracket around its groups. None of this changes what it is read as or what it prints,
as long as it is read without errors. (With errors, layout shows in them: they keep their tokens.)

* `Program.output_eq`: what a text prints is decided by its S-expressions, without their places.
* `Sexp.map_ofText_of_rounded`: two texts without errors are the same S-expressions if their tokens
  are the same, apart from blank ones and kinds of bracket.
* `Program.layout_does_not_matter` puts these together with the reader.
-/

namespace Tyro

namespace Sexp

/-- Two texts that are read without errors are the same S-expressions if their tokens that are not
blank are the same when rounded. -/
theorem map_ofText_of_rounded {source other : String}
    (clean : ∀ d ∈ ofText source, d.sexp.IsClean) (clean' : ∀ d ∈ ofText other, d.sexp.IsClean)
    (rounded : ((Token.scan source).filter fun t => !t.isBlank).map Token.rounded =
      ((Token.scan other).filter fun t => !t.isBlank).map Token.rounded) :
    (ofText source).map (·.sexp) = (ofText other).map (·.sexp) := by
  have alone : readAll ((Token.scan source).filter fun t => !t.isBlank) = ofText source :=
    readAll_filter_of_isClean clean
  have alone' : readAll ((Token.scan other).filter fun t => !t.isBlank) = ofText other :=
    readAll_filter_of_isClean clean'
  rw [← alone] at clean
  rw [← alone'] at clean'
  have matched := Reader.matched_of_isClean clean'
  have same := Reader.map_readAll_of_rounded rounded clean matched
  rw [alone, alone'] at same
  exact same.symm

end Sexp

namespace Program

/-- What a text prints is what its forms print, wherever they stand in it. -/
theorem output_eq (fuel : Nat) (source : String) :
    output fuel source =
      (run fuel (Form.ofData (Sexp.ofText source))).map fun r => FormResult.print r.1 := by
  cases ran : run fuel (Form.ofData (Sexp.ofText source)) with
  | none =>
    have fails : runText fuel source = none := by
      cases h : runText fuel source with
      | none => rfl
      | some results =>
        obtain ⟨rs, s, ran', -⟩ := runText_eq_some_iff.1 h
        rw [ran] at ran'
        cases ran'
    rw [output, fails]
    rfl
  | some r =>
    obtain ⟨results, s⟩ := r
    have length := length_run ran
    rw [Form.ofData, List.length_map] at length
    have located := runText_eq_some_iff.2 ⟨results, s, ran, rfl⟩
    have shown : (locate results (Sexp.ofText source)).map (·.result) = results := by
      rw [locate, List.map_map]
      exact List.map_fst_zip (by rw [List.length_map, length])
    rw [output, located]
    exact congrArg (fun results => some (FormResult.print results)) shown

/-- Texts of the same S-expressions print the same. -/
theorem output_congr {source other : String}
    (same : (Sexp.ofText source).map (·.sexp) = (Sexp.ofText other).map (·.sexp)) (fuel : Nat) :
    output fuel source = output fuel other := by
  have forms (text : String) :
      Form.ofData (Sexp.ofText text) = ((Sexp.ofText text).map (·.sexp)).map Form.ofSexp :=
    Form.ofText_of_read rfl
  rw [output_eq, output_eq, forms, forms, same]

/-- **Layout does not matter.** Tokens are read without the blank ones as they are with them, in the
same places, except that the errors do not keep blank tokens. Where no error is read, at whatever
depth, the two brackets of a pair can be of any other kind without a change in what is read. So two
texts print the same if both are read without errors and their tokens that are not blank have the
same kinds and texts, where brackets need not be of the same kind. -/
theorem layout_does_not_matter :
    (∀ ts, Sexp.readAll (ts.filter fun t => !t.isBlank) =
      (Sexp.readAll ts).map Sexp.Located.compact) ∧
    (∀ {ts : List Token} {i j : Nat} {bracket other kind : Bracket} {opened closed : Token},
      (∀ d ∈ Sexp.readAll ts, d.sexp.IsClean) → Reader.Pairs ts i j bracket other →
      opened.kind = .opener kind → closed.kind = .closer kind →
      (Sexp.readAll ((ts.set i opened).set j closed)).map (·.sexp) =
        (Sexp.readAll ts).map (·.sexp)) ∧
    ∀ {source other : String}, (∀ d ∈ Sexp.ofText source, d.sexp.IsClean) →
      (∀ d ∈ Sexp.ofText other, d.sexp.IsClean) →
      ((Token.scan source).filter fun t => !t.isBlank).map Token.rounded =
        ((Token.scan other).filter fun t => !t.isBlank).map Token.rounded →
      (Sexp.ofText source).map (·.sexp) = (Sexp.ofText other).map (·.sexp) ∧
        ∀ fuel, output fuel source = output fuel other := by
  refine ⟨Sexp.readAll_compact, ?_, ?_⟩
  · intro ts i j bracket other kind opened closed clean pair opens closes
    exact pair.map_readAll_set opens closes clean
  · intro source other clean clean' rounded
    have same := Sexp.map_ofText_of_rounded clean clean' rounded
    exact ⟨same, output_congr same⟩

/-- Curly brackets in place of the square ones around the body make no difference to what is read.
Other blanks, a comment and other kinds of bracket make none to what is printed: the line for the
definition, and the error of the call. -/
theorem layout_of_two_texts :
    (∀ d ∈ Sexp.ofText "(define (f x) [g x]) (f \"a\")", d.sexp.IsClean) ∧
      (Sexp.readAll (((Token.scan "(define (f x) [g x]) (f \"a\")").set
          9 ⟨.opener .curly, "\x7b", ⟨14, 15⟩⟩).set 13 ⟨.closer .curly, "\x7d", ⟨18, 19⟩⟩)).map
            (·.sexp) =
        (Sexp.ofText "(define (f x) [g x]) (f \"a\")").map (·.sexp) ∧
      (∀ fuel, output fuel "(define (f x) [g x]) (f \"a\")" =
        output fuel "[define (f x\n) (g ; the name\n x )](f \"a\" )") ∧
      output 3 "[define (f x\n) (g ; the name\n x )](f \"a\" )" =
        some "Defined (f x) to be (g x).\ng: this variable is not defined\n" := by
  have clean : ∀ d ∈ Sexp.ofText "(define (f x) [g x]) (f \"a\")", d.sexp.IsClean := by
    decide +kernel
  have pair : Reader.Pairs (Token.scan "(define (f x) [g x]) (f \"a\")") 9 13 .square .square :=
    ⟨by decide +kernel, by decide +kernel, by decide +kernel⟩
  have printed : output 3 "(define (f x) [g x]) (f \"a\")" =
      some "Defined (f x) to be (g x).\ng: this variable is not defined\n" := by decide +kernel
  have same : ∀ fuel, output fuel "(define (f x) [g x]) (f \"a\")" =
      output fuel "[define (f x\n) (g ; the name\n x )](f \"a\" )" :=
    (layout_does_not_matter.2.2 clean (by decide +kernel) (by decide +kernel)).2
  refine ⟨clean, layout_does_not_matter.2.1 clean pair rfl rfl, same, ?_⟩
  exact (same 3).symm.trans printed

end Program

end Tyro
