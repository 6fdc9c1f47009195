import LineForth.Operation
import Std.Data.TreeMap

/-! # The dictionary

The words that a line may use, each with the operations it stands for. Names are compared exactly,
so upper and lower case differ, and a later definition of a name replaces the earlier one.
-/

namespace LineForth

/-- Words by name, in the order of their code points. -/
abbrev Dictionary := Std.TreeMap String (List Operation)

namespace Dictionary

/-- The words of a new dictionary, one operation each. -/
def coreWords : List (String × Operation) :=
  [("NOP", .nop), ("DROP", .drop), ("DUP", .dup), ("BYE", .bye),
   ("ABS", .unary .abs), ("NEGATE", .unary .negate),
   ("0=", .unary (.compareZero .equal)), ("0<>", .unary (.compareZero .unequal)),
   ("0<", .unary (.compareZero .less)), ("0>", .unary (.compareZero .greater)),
   ("+", .binary .add), ("-", .binary .sub), ("*", .binary .mul),
   ("/", .binary .div), ("MOD", .binary .mod), ("MAX", .binary .max), ("MIN", .binary .min),
   ("=", .binary (.compare .equal)), ("<>", .binary (.compare .unequal)),
   ("<", .binary (.compare .less)), (">", .binary (.compare .greater))]

/-- Define the core words, over whatever their names meant before. -/
def defineCore (dictionary : Dictionary) : Dictionary :=
  coreWords.foldl (fun words entry => words.insert entry.1 [entry.2]) dictionary

end Dictionary

end LineForth
