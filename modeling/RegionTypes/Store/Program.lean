import RegionTypes.Store.Execution

/-!
# Running scripts

A completer is a script, and a step of a script may start completers, so commands and completers are
defined by one recursion.  Its depth bounds how deeply completers may start each other.

* `perform` — carries out a command, with the loader that runs completers.
* `Completer.run` — runs a completer's script from the start to its end.
* `Session.run` — runs a script step by step and reports on each step.  A step that fails does not
  keep the next ones from running; a stop does.
-/

namespace RegionTypes

open Run

/-- Carries out the command of a step and gives its name to what it answered. -/
def makeStep (perform : Command → Run Outcome) (step : Step) : Run Outcome := do
  let outcome ← perform step.2
  match outcome, step.1 with
  | .ok answer, some label =>
    modify (·.bind label answer)
    return outcome
  | _, _ => return outcome

/-- Runs the steps of a completer; tells which failure ended them early, if one did. -/
def runScript (perform : Command → Run Outcome) (propagate : Bool) :
    List Step → Run (Option Failure)
  | [] => return none
  | step :: rest => do
    let outcome ← makeStep perform step
    note (.stepped outcome)
    match outcome, propagate with
    | .error failure, true => return some failure
    | _, _ => runScript perform propagate rest

def Completer.run (perform : Command → Run Outcome) (completer : Completer) (sym : SymbolId) :
    Run (Except CompletionError Unit) := do
  note (.began sym)
  let ending ← runScript perform completer.propagate completer.script
  let name := (← symbolData sym).name
  match (ending.map Failure.message).or completer.failure with
  | some message =>
    note (.ended sym false)
    return .error ⟨name, message⟩
  | none =>
    note (.ended sym true)
    return .ok ()

/-- Carries out a command.  The depth bounds how deeply operations may nest. -/
def perform : Nat → Command → Run Outcome
  | 0, _ => tooDeep
  | depth + 1, command =>
    execute (completeSymbol fun completer sym => completer.run (perform depth) sym) depth command

/-- How deeply the operations of a step may nest.  Handles are 32-bit numbers, so no chain of types
without a cycle is longer. -/
def nestingLimit : Nat := 4294967296

structure Report where
  outcome : Except Stop Outcome
  trace : List TraceEntry

/-- Runs the steps of a script and reports on each.  A stop ends the script. -/
def Session.run (s : Session) : List Step → List Report
  | [] => []
  | step :: rest =>
    match makeStep (perform nestingLimit) step { s with trace := [] } with
    | .ok outcome next => ⟨.ok outcome, next.trace.reverse⟩ :: next.run rest
    | .error stop next => [⟨.error stop, next.trace.reverse⟩]

end RegionTypes
