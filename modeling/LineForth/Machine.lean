import LineForth.Token

/-! # The machine

The state that a line is run against: the dictionary, the tokens read and not yet resolved, the
operations resolved and not yet applied, the data stack, and a count of the operations applied so
far. The queues are empty between lines, unless a run stopped inside one.
-/

namespace LineForth

structure Machine where
  dictionary : Dictionary := ∅
  /-- Tokens waiting to be resolved, the next one first. -/
  tokens : List Token := []
  /-- Operations waiting to be applied, the next one first. -/
  operations : List Operation := []
  /-- The data stack, its top cell first. -/
  stack : Stack := []
  /-- How many operations have been applied. -/
  applied : Nat := 0

namespace Machine

def empty : Machine := {}

def define (machine : Machine) (name : String) (operations : List Operation) : Machine :=
  { machine with dictionary := machine.dictionary.insert name operations }

/-- Take a name out of the dictionary; there is no machine without a name that it does not have. -/
def forget? (machine : Machine) (name : String) : Option Machine :=
  if machine.dictionary.contains name then
    some { machine with dictionary := machine.dictionary.erase name }
  else none

def defineCore (machine : Machine) : Machine :=
  { machine with dictionary := machine.dictionary.defineCore }

def queueTokens (machine : Machine) (tokens : List Token) : Machine :=
  { machine with tokens := machine.tokens ++ tokens }

def queueOperations (machine : Machine) (operations : List Operation) : Machine :=
  { machine with operations := machine.operations ++ operations }

/-- Push cells one after the other, so that the last one ends on top. -/
def push (machine : Machine) (cells : List Cell) : Machine :=
  { machine with stack := cells.reverse ++ machine.stack }

/-- Replace the data stack by cells, given from the bottom up. -/
def setStack (machine : Machine) (cells : List Cell) : Machine :=
  { machine with stack := cells.reverse }

def discardPending (machine : Machine) : Machine :=
  { machine with tokens := [], operations := [] }

/-- The whole state on one line; of the dictionary it shows the number of words. -/
def render (machine : Machine) : String :=
  "VM(words=" ++ toString machine.dictionary.size ++
    ", tokens=" ++ Token.renderAll machine.tokens ++
    ", operations=" ++ Operation.renderAll machine.operations ++
    ", data_stack=" ++ machine.stack.render ++
    ", ops_applied=" ++ toString machine.applied ++ ")"

end Machine

end LineForth
