import AnswerKey.CommandLine.Commands

namespace AnswerKey.Main

open CommandLine

def readIfPresent (path : String) : IO (Option (String × List Char)) := do
  try
    return some (path, (← IO.FS.readFile path).toList)
  catch _ =>
    return none

/-- The paths that an argument may hold: all of it, or what follows an equals sign. -/
def candidates (arg : String) : List String :=
  match Text.cut? ['='] arg.toList with
  | some (_, value) => [arg, .ofList value]
  | none => [arg]

def standIns : List String := [Flag.config, Flag.timeout].filterMap Flag.standIn?

def worldFor (args : List String) : IO World := do
  let environment ← standIns.filterMapM fun name ↦ do
    return (← IO.getEnv name).map (name, ·)
  let paths := args.flatMap candidates ++ environment.map Prod.snd
  let files ← paths.filterMapM readIfPresent
  return {
    file? := fun path ↦ files.lookup path
    environment? := fun name ↦ environment.lookup name
    host := fun _ ↦ .refused "programs cannot be started"
    overflow := .breaks }

end AnswerKey.Main

def main (args : List String) : IO UInt32 := do
  let exit := AnswerKey.CommandLine.execute (← AnswerKey.Main.worldFor args) args
  IO.print exit.stdout
  if let some complaint := exit.complaint then IO.eprint complaint
  return exit.code.toUInt32
