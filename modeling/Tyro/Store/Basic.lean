import Tyro.Eval.Error
import Tyro.Store.Bindings
import Tyro.Text.Sorted

/-!
# The store

All that lasts while programs run: frames of bindings, and how many structure types have been made.
A frame lies on the frames around it, and a name is looked up in the innermost frame that has it. A
definition goes through two steps: every name of a program is *reserved* before anything is
evaluated, and *filled* once its definition has been, with a value or with the error that came
instead. What has been filled stays as it is.

A frame belongs to whoever made it until it is released. A function keeps the number of the frame in
which it was defined, but does not keep that frame: once neither the frame nor one that lies on it
is held any more, the function cannot be called.
-/

namespace Tyro

/-- What a name of a frame is bound to. -/
inductive Slot where
  /-- Its definition has not been evaluated. -/
  | reserved
  /-- The result of its definition. -/
  | filled (result : Except EvalError Value)

/-- A frame of bindings. -/
structure Frame where
  /-- The frames that it lies on, from the nearest to the outermost. -/
  outers : List FrameId
  bindings : Bindings Slot
  /-- Whether whoever made the frame still holds it. -/
  held : Bool

/-- The frames by number, and the serial number for the next structure type. -/
structure Store where
  frames : List Frame
  nextSerial : Nat

/-- Why a slot cannot be filled, or a definition binds nothing. -/
inductive BindingError where
  /-- The name has been filled before. -/
  | alreadyDefined (name : String)
  /-- The name was never reserved. No definition of a program meets this. -/
  | notReserved (name : String)
  /-- The defining expression has no value. -/
  | value (error : EvalError)

/-- The error in words. -/
def BindingError.message : BindingError → String
  | .alreadyDefined name => name ++ ": this name was defined previously and cannot be re-defined"
  | .notReserved name => name ++ " was filled without being reserved"
  | .value e => e.message

namespace Store

/-- The store before anything is made. -/
def empty : Store := ⟨[], 0⟩

/-! ## Looking up -/

/-- A frame with the frames that it lies on, innermost first. -/
def chain (s : Store) (frame : FrameId) : List FrameId :=
  match s.frames[frame]? with
  | some f => frame :: f.outers
  | none => []

/-- The slot that a frame itself has for a name. -/
def slot? (s : Store) (frame : FrameId) (name : String) : Option Slot :=
  match s.frames[frame]? with
  | some f => f.bindings.get? name
  | none => none

/-- The slot of a name in the innermost frame that has it. -/
def lookup (s : Store) (frame : FrameId) (name : String) : Option Slot :=
  (s.chain frame).findSome? fun id => s.slot? id name

/-- The names that a frame itself has. -/
def ownNames (s : Store) (frame : FrameId) : List String :=
  match s.frames[frame]? with
  | some f => f.bindings.names
  | none => []

/-- The names visible from a frame, in order and each once. -/
def names (s : Store) (frame : FrameId) : List String :=
  Text.sortedNames ((s.chain frame).flatMap s.ownNames)

/-- Whether a frame is still there: it is held, or lies under one that is held. -/
def isLive (s : Store) (frame : FrameId) : Bool :=
  s.frames.zipIdx.any fun (f, id) => f.held && (frame == id || f.outers.contains frame)

/-! ## Making frames -/

/-- Adds a frame that its maker holds. -/
def addFrame (s : Store) (outers : List FrameId) (bindings : Bindings Slot) : FrameId × Store :=
  (s.frames.length, { s with frames := s.frames ++ [⟨outers, bindings, true⟩] })

/-- Makes an empty frame that lies on no other. -/
def newTop (s : Store) : FrameId × Store := s.addFrame [] .empty

/-- Makes a frame on top of another, with the given values; of one name the last value counts. -/
def extend (s : Store) (frame : FrameId) (values : List (String × Value)) : FrameId × Store :=
  s.addFrame (s.chain frame) (.ofList (values.map fun (name, v) => (name, .filled (.ok v))))

/-- Makes a structure type. -/
def newStruct (s : Store) (name : String) (fields : List String) : StructType × Store :=
  (⟨s.nextSerial, name, fields⟩, { s with nextSerial := s.nextSerial + 1 })

/-- The library: the built-in functions, two constants, and a structure for points. -/
def library (point : StructType) : List (String × Value) :=
  Builtin.all.map (fun f => (f.name, .builtin f)) ++
    [("pi", .number 3.141592653589793), ("e", .number 2.718281828459045)] ++ point.functions

/-- Makes a frame that lies on no other and holds the library. -/
def newLibrary (s : Store) : FrameId × Store :=
  let (point, s) := s.newStruct "posn" ["x", "y"]
  s.addFrame [] (.ofList ((library point).map fun (name, v) => (name, .filled (.ok v))))

/-! ## Changing frames -/

/-- Changes a frame. -/
def modify (s : Store) (frame : FrameId) (change : Frame → Frame) : Store :=
  { s with frames := s.frames.modify frame change }

/-- Puts a slot into a frame. -/
def setSlot (s : Store) (frame : FrameId) (name : String) (slot : Slot) : Store :=
  s.modify frame fun f => { f with bindings := f.bindings.insert name slot }

/-- Binds a name in a frame to a value, whatever it was bound to. -/
def define (s : Store) (frame : FrameId) (name : String) (v : Value) : Store :=
  s.setSlot frame name (.filled (.ok v))

/-- Reserves a name in a frame. A name that the frame has is left as it is. -/
def reserve (s : Store) (frame : FrameId) (name : String) : Store :=
  match s.slot? frame name with
  | some _ => s
  | none => s.setSlot frame name .reserved

/-- Reserves several names, one after the other. -/
def reserveAll (s : Store) (frame : FrameId) (names : List String) : Store :=
  names.foldl (fun s name => s.reserve frame name) s

/-- Fills a reserved name of a frame. -/
def fill (s : Store) (frame : FrameId) (name : String) (result : Except EvalError Value) :
    Except BindingError Store :=
  match s.slot? frame name with
  | some .reserved => .ok (s.setSlot frame name (.filled result))
  | some (.filled _) => .error (.alreadyDefined name)
  | none => .error (.notReserved name)

/-- Gives up a frame. -/
def release (s : Store) (frame : FrameId) : Store :=
  s.modify frame fun f => { f with held := false }

end Store

end Tyro
