import LineForth.Run

/-! # Applying operations

Operations leave the queue in order and are applied to the data stack one at a time. At a halt the
stack is as it was before the operation, which is gone from the queue and not counted, and the
operations behind it stay queued.
-/

namespace LineForth.Machine

def farewell : String := "It's time to say goodbye~\n"

/-- Apply the given operations, which are what the operation queue holds, where a table says what effect
each of them has. -/
def executeAllBy (effect : Operation → Stack → Effect) (machine : Machine) : List Operation → Run Unit
  | [] => .done () { machine with operations := [] }
  | operation :: rest =>
      match effect operation machine.stack with
      | .leaves stack =>
          (executeAllBy effect { machine with stack := stack, applied := machine.applied + 1 } rest).after
            [.recorded (.applied operation stack)]
      | .fails cause =>
          ⟨.error (.ofExecution cause), { machine with operations := rest },
            [.recorded (.failed operation cause)]⟩
      | .bye => ⟨.error .bye, { machine with operations := rest }, [.printed farewell]⟩

def executeAll (machine : Machine) (operations : List Operation) : Run Unit :=
  machine.executeAllBy Operation.apply operations

theorem executeAll_cons (machine : Machine) (operation : Operation) (rest : List Operation) :
    machine.executeAll (operation :: rest) =
      match operation.apply machine.stack with
      | .leaves stack =>
          (executeAll { machine with stack := stack, applied := machine.applied + 1 } rest).after
            [.recorded (.applied operation stack)]
      | .fails cause =>
          ⟨.error (.ofExecution cause), { machine with operations := rest },
            [.recorded (.failed operation cause)]⟩
      | .bye => ⟨.error .bye, { machine with operations := rest }, [.printed farewell]⟩ := rfl

def execute (machine : Machine) : Run Unit := machine.executeAll machine.operations

/-- Apply one operation outside the queue; it is neither counted nor recorded. -/
def apply (machine : Machine) (operation : Operation) : Run Unit :=
  match operation.apply machine.stack with
  | .leaves stack => .done () { machine with stack := stack }
  | .fails cause => .halt (.ofExecution cause) machine
  | .bye => ⟨.error .bye, machine, [.printed farewell]⟩

end LineForth.Machine
