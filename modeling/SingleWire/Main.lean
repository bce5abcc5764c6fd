import SingleWire.Command.Invocation

open SingleWire

def main (words : List String) : IO UInt32 := do
  let invocation := Command.invoke words
  (← IO.getStdout).putStr invocation.output
  (← IO.getStderr).putStr invocation.diagnostics
  pure (UInt32.ofNat invocation.status)
