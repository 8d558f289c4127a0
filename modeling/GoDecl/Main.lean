import GoDecl.CommandLine

/-! The program: reads arguments and lines, and prints what they lead to. -/
namespace GoDecl

def printTranscript (t : Transcript) : IO Unit := do
  IO.print (Transcript.channelText t.out)
  IO.eprint (Transcript.channelText t.err)
  (← IO.getStdout).flush

/-- Answers line by line until the input ends or the user leaves. -/
partial def converse (s : Session) : IO Unit := do
  let line ← (← IO.getStdin).getLine
  if line.isEmpty then printTranscript { out := [Repl.farewell] }
  else
    let (next, printed) := Repl.step s line.toList
    printTranscript printed
    match next with
    | some s => converse s
    | none => return

end GoDecl

open GoDecl in
def main (args : List String) : IO UInt32 := do
  match CommandLine.Request.ofArgs args with
  | .run { source := none, codePoints, maxDepth, noZeroValues, verbosity } =>
    printTranscript { out := [Repl.banner] }
    converse (CommandLine.Options.session { codePoints, maxDepth, noZeroValues, verbosity })
    return 0
  | request =>
    let result := request.perform []
    printTranscript result.transcript
    if result.code = 2 then IO.eprintln CommandLine.usage
    return result.code.toUInt32
