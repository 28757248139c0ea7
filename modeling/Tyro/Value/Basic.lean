import Tyro.Builtin.Basic
import Tyro.Expr.Basic

/-!
# Values

What expressions evaluate to: atoms, functions of several kinds, and structures. Every evaluated
structure definition makes a type of its own, told apart by a serial number, so that two definitions
of one name and the same fields are still different types. A function defined by a program remembers
the frame in which it was defined.

Two comparisons live here. `Value.equal` is the language's own: only atoms are ever equal. `alike`
compares contents, leaving out serial numbers and frames; it is for those who look at the results of
a program from outside.
-/

namespace Tyro

/-- The number of a frame of a store. -/
abbrev FrameId := Nat

/-- The type that a structure definition makes. -/
structure StructType where
  /-- The serial number, different for every definition that is evaluated. -/
  serial : Nat
  name : String
  fields : List String
  deriving DecidableEq, Repr

namespace StructType

/-- The name of one field, counted from zero. -/
def field (type : StructType) (index : Nat) : String := type.fields.getD index ""

/-- Whether two types have the same name and fields. -/
def alike (a b : StructType) : Bool := a.name = b.name && a.fields = b.fields

end StructType

/-- A function that a program defines. -/
structure Closure where
  name : String
  params : List String
  body : Expr
  /-- The frame in which the function was defined. -/
  home : FrameId

/-- Whether two functions have the same name, parameters and body. -/
def Closure.alike (a b : Closure) : Bool :=
  a.name = b.name && a.params = b.params && a.body.alike b.body

/-- A value. -/
inductive Value where
  | string (content : String)
  | number (value : Float)
  | boolean (value : Bool)
  | builtin (function : Builtin)
  | closure (function : Closure)
  | struct (type : StructType) (fields : List Value)
  | constructor (type : StructType)
  | accessor (type : StructType) (index : Nat)
  | predicate (type : StructType)

namespace Value

instance : Inhabited Value := ⟨.boolean false⟩

/-- The number that the value is. -/
def number? : Value → Option Float
  | .number x => some x
  | _ => none

/-- The string that the value is. -/
def string? : Value → Option String
  | .string s => some s
  | _ => none

/-- The boolean that the value is. -/
def boolean? : Value → Option Bool
  | .boolean b => some b
  | _ => none

/-! ## Rendering -/

mutual

/-- The value as text: a structure as the call that makes it, a function as its name. -/
def render : Value → String
  | .string content => quotedText content
  | .number value => Number.text value
  | .boolean value => booleanText value
  | .builtin function => function.name
  | .closure function => function.name
  | .struct type fields => "(" ++ constructorName type.name ++ spaced (renderAll fields) ++ ")"
  | .constructor type => constructorName type.name
  | .accessor type index => accessorName type.name (type.field index)
  | .predicate type => predicateName type.name

/-- The texts of several values. -/
def renderAll : List Value → List String
  | [] => []
  | v :: vs => v.render :: renderAll vs

end

/-! ## Comparing -/

/-- Equality in the language: of atoms of one kind, and of nothing else. -/
def equal : Value → Value → Bool
  | .string a, .string b => a = b
  | .number a, .number b => a == b
  | .boolean a, .boolean b => a = b
  | _, _ => false

mutual

/-- Whether two values have the same contents, with their numbers compared as numbers. -/
def alike : Value → Value → Bool
  | .string a, .string b => a = b
  | .number a, .number b => a == b
  | .boolean a, .boolean b => a = b
  | .builtin f, .builtin g => f = g
  | .closure f, .closure g => f.alike g
  | .struct s as, .struct t bs => s.alike t && allAlike as bs
  | .constructor s, .constructor t => s.alike t
  | .accessor s i, .accessor t j => s.alike t && i = j
  | .predicate s, .predicate t => s.alike t
  | _, _ => false

/-- Whether two lists of values have the same contents, item by item. -/
def allAlike : List Value → List Value → Bool
  | [], [] => true
  | a :: as, b :: bs => a.alike b && allAlike as bs
  | _, _ => false

end

end Value

namespace StructType

/-- The accessors of the fields from the given place on, each under its name. -/
def accessorsFrom (type : StructType) (index : Nat) : List String → List (String × Value)
  | [] => []
  | field :: fields =>
    (accessorName type.name field, .accessor type index) ::
      type.accessorsFrom (index + 1) fields

/-- The functions of a structure type, each under the name that the definition binds it to: the
constructor, an accessor for every field, and the predicate. -/
def functions (type : StructType) : List (String × Value) :=
  (constructorName type.name, .constructor type) ::
    type.accessorsFrom 0 type.fields ++ [(predicateName type.name, .predicate type)]

theorem map_fst_accessorsFrom (type : StructType) (index : Nat) (fields : List String) :
    (type.accessorsFrom index fields).map Prod.fst = fields.map (accessorName type.name) := by
  induction fields generalizing index with
  | nil => rfl
  | cons field fields ih => simp [accessorsFrom, ih]

/-- The functions have exactly the names that the definition binds. -/
theorem map_fst_functions (type : StructType) :
    type.functions.map Prod.fst = structNames type.name type.fields := by
  simp [functions, structNames, map_fst_accessorsFrom]

end StructType

end Tyro
