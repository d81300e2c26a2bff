import OverloadResolution.CommandLine.Tool

/-!
# The executable

Reads the environment, runs the tool on the words of the command line, and writes its two streams.
-/

set_option autoImplicit false

open OverloadResolution in
/-- Runs the tool on the words of the command line and answers with its status. -/
def main (words : List String) : IO UInt32 := do
  let trace ← IO.getEnv "ARBITER_TRACE"
  let fold ← IO.getEnv "ARBITER_FOLD_RECEIVER"
  let outcome := CommandLine.run ⟨trace, fold⟩ words
  IO.print outcome.out
  IO.eprint outcome.err
  pure (UInt32.ofNat outcome.status)
