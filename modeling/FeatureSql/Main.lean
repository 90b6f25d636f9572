import FeatureSql.CommandLine

open FeatureSql

/-- Wrong arguments are refused before any input is read. -/
def main (arguments : List String) : IO UInt32 := do
  match CommandLine.job? arguments with
  | none =>
    IO.eprintln "wrong arguments"
    return 2
  | some .version =>
    IO.println CommandLine.programVersion
    return 0
  | some job =>
    let input ← (← IO.getStdin).readToEnd
    let run := job.run input
    IO.println run.output
    return UInt32.ofNat run.exitCode
