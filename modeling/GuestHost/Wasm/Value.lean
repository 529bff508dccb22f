/-!
# WebAssembly values

The types of WebAssembly values and the values themselves.  A floating-point value is its bits.  No
instruction makes a reference to anything, so the only reference is the null reference of its type.
-/

namespace GuestHost

namespace Wasm

/-- The type of a value. -/
inductive ValueType where
  | i32
  | i64
  | f32
  | f64
  | v128
  | externref
  | funcref
  deriving DecidableEq, Repr, Inhabited

namespace ValueType

/-- The name of a type in the text format. -/
def name : ValueType → String
  | i32 => "i32"
  | i64 => "i64"
  | f32 => "f32"
  | f64 => "f64"
  | v128 => "v128"
  | externref => "externref"
  | funcref => "funcref"

/-- Every type. -/
def all : List ValueType := [i32, i64, f32, f64, v128, externref, funcref]

/-- The type with the given name. -/
def ofName? (name : String) : Option ValueType := all.find? fun t => t.name == name

/-- Whether values of the type refer to something. -/
def isReference : ValueType → Bool
  | externref | funcref => true
  | _ => false

theorem ofName?_name (t : ValueType) : ofName? t.name = some t := by cases t <;> decide

end ValueType

/-- A value. -/
inductive Value where
  | i32 (word : UInt32)
  | i64 (word : UInt64)
  | f32 (bits : UInt32)
  | f64 (bits : UInt64)
  | v128 (bits : BitVec 128)
  | nullExtern
  | nullFunc
  deriving DecidableEq, Repr

namespace Value

instance : Inhabited Value := ⟨i32 0⟩

/-- The type of a value. -/
def type : Value → ValueType
  | i32 _ => .i32
  | i64 _ => .i64
  | f32 _ => .f32
  | f64 _ => .f64
  | v128 _ => .v128
  | nullExtern => .externref
  | nullFunc => .funcref

/-- The value of a type that has only zero bits, or that refers to nothing. -/
def zero : ValueType → Value
  | .i32 => i32 0
  | .i64 => i64 0
  | .f32 => f32 0
  | .f64 => f64 0
  | .v128 => v128 0
  | .externref => nullExtern
  | .funcref => nullFunc

/-- The word of a 32-bit integer. -/
def i32? : Value → Option UInt32
  | i32 word => some word
  | _ => none

@[simp]
theorem type_zero (t : ValueType) : (zero t).type = t := by cases t <;> rfl

end Value

/-- The type of a function. -/
structure FunctionType where
  params : List ValueType
  results : List ValueType
  deriving DecidableEq, Repr, Inhabited

end Wasm

end GuestHost
