/-
Module: Crosswire.Machine
Purpose: The machine: a program, its configuration and resolver, the state, a sink, the position of the
  next instruction and the number of instructions executed. `turn` is one turn of the machine; every
  run is a sequence of turns, so what holds of all turns holds of all runs.
Imports: Crosswire.Event, Crosswire.Renderer
Main exports: Config, Machine, Machine.create, Turn, Machine.turn
-/
import Crosswire.Event
import Crosswire.Renderer

namespace Crosswire

/-- How a machine is to run. -/
structure Config where
  /-- The number of instructions after which to stop; unlimited if absent. -/
  maxSteps : Option Nat := none
  /-- Whether to log every step. -/
  trace : Bool := false
  /-- Whether to pair all brackets up front instead of scanning at every jump. -/
  cacheJumps : Bool := false
  /-- Whether styled output is honoured. -/
  allowStyling : Bool := true
deriving DecidableEq, Repr

/-- A machine that prints to a sink of type `σ`. -/
structure Machine (σ : Type) where
  program : Program
  config : Config
  resolver : Resolver
  renderer : Renderer
  state : State
  sink : σ
  /-- The position of the next instruction. -/
  position : Nat
  /-- How many instructions have been executed. -/
  steps : Nat
  /-- The resolver is the one that the configuration asks for. -/
  resolver_eq : resolver = Resolver.ofProgram program config.cacheJumps := by rfl

namespace Machine

variable {σ : Type}

/-- A machine at the start of a program. -/
def create (program : Program) (sink : σ) (config : Config) (words : Words) : Machine σ where
  program
  config
  resolver := Resolver.ofProgram program config.cacheJumps
  renderer := ⟨words, config.allowStyling⟩
  state := .initial
  sink
  position := 0
  steps := 0

/-- Whether as many instructions have been executed as the configuration allows. -/
def limitReached (machine : Machine σ) : Bool :=
  match machine.config.maxSteps with
  | some limit => limit ≤ machine.steps
  | none => false

/-- The event of starting a run call. -/
def startedEvent (machine : Machine σ) : Event :=
  .started machine.program.length machine.config.cacheJumps

/-- The log of an instruction about to be executed, empty unless steps are traced. -/
def stepEvents (machine : Machine σ) (instruction : Instruction) : List Event :=
  if machine.config.trace then
    [.step machine.steps machine.position instruction machine.state.accumulator]
  else
    []

end Machine

/-- How a turn ends: the machine can take another turn, or the run call returns. -/
inductive Turn (σ : Type) where
  | goesOn (machine : Machine σ)
  | returns (result : RunResult) (machine : Machine σ)

namespace Machine

variable {σ : Type} [Sink σ]

/-- Print a value and move on. If the sink does not take it, the position stays, so that a later run
call tries the same print again. -/
def print (machine : Machine σ) (value : Value) : Turn σ :=
  let (characters, renderer) := machine.renderer.render value machine.state.styled
  match Sink.write characters machine.sink with
  | (.ok (), sink) => .goesOn { machine with renderer, sink, position := machine.position + 1 }
  | (.error failure, sink) => .returns (.error (.output failure)) { machine with renderer, sink }

/-- Do what an executed instruction asks for. -/
def apply (machine : Machine σ) : Effect → List Event × Turn σ
  | .next => ([], .goesOn { machine with position := machine.position + 1 })
  | .jump target => ([.jumped machine.position target], .goesOn { machine with position := target })
  | .print value => ([], machine.print value)
  | .halt =>
    let halt := Halt.ended machine.position
    ([.finished machine.steps halt], .returns (.ok halt) machine)

/-- One turn. The end of the program is noticed before the step limit, and the limit before the
instruction is executed; a faulting instruction is not counted. -/
def turn (machine : Machine σ) : List Event × Turn σ :=
  match machine.program.get? machine.position with
  | none => ([.finished machine.steps .endOfProgram], .returns (.ok .endOfProgram) machine)
  | some instruction =>
    if machine.limitReached then
      ([.finished machine.steps .stepLimit], .returns (.ok .stepLimit) machine)
    else
      let traced := machine.stepEvents instruction
      match execute instruction machine.position machine.program machine.resolver machine.state with
      | (.error fault, state) =>
        (traced ++ [.aborted machine.steps fault],
          .returns (.error (.faulted fault)) { machine with state })
      | (.ok effect, state) =>
        let (events, next) := apply { machine with state, steps := machine.steps + 1 } effect
        (traced ++ events, next)

end Machine

end Crosswire
