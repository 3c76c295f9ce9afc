import TierCache.Cli.Launch
/-!
# The program

Reads the environment variables the program knows and, when the command line names one, the
settings file, then runs the program on them. A program that keeps serving does so until its
standard input ends, which stands for the interrupt that stops it, and then says how it stops.
-/

open TierCache

/-- The variables the program reads. -/
def knownVariables : List String := Flag.all.filterMap Flag.envVar ++ ["RUST_LOG"]

/-- The operating system's failure as the program reports it. -/
def osErrorOf (e : IO.Error) : OsError :=
  match e with
  | .noFileOrDirectory .. => OsError.notFound
  | .inappropriateType .. => OsError.isADirectory
  | .permissionDenied .. => ⟨13, "PermissionDenied", "Permission denied"⟩
  | other => ⟨0, "Other", toString other⟩

/-- Reads standard input to its end. -/
partial def awaitEnd (stdin : IO.FS.Stream) : IO Unit := do
  let line ← stdin.getLine
  if line.isEmpty then return
  awaitEnd stdin

def main (args : List String) : IO UInt32 := do
  let vars ← knownVariables.mapM fun k => do return (k, ← IO.getEnv k)
  let env := fun k => (vars.lookup k).join
  let path := match readCommandLine env args with
    | .ok inv => inv.config
    | .error _ => none
  let file ← match path with
    | some p =>
      try
        let text ← IO.FS.readFile p
        pure (p, Except.ok text)
      catch e => pure (p, .error (osErrorOf e))
    | none => pure ("", .error OsError.notFound)
  let network : Network := { held := [] }
  let machine : Machine :=
    { env, read := fun p => if p == file.1 then file.2 else .error OsError.notFound, bind := network.bind }
  let run := launch machine args
  let stdout ← IO.getStdout
  let stderr ← IO.getStderr
  stdout.putStr run.printed
  stderr.putStr run.errors
  for l in run.log do
    stdout.putStrLn (l.render run.logJson)
  stdout.flush
  match run.exitCode with
  | some code => return code.toUInt32
  | none =>
    awaitEnd (← IO.getStdin)
    let filter := LogFilter.create ((readCommandLine env args).toOption.map (·.logLevel) |>.getD "info")
      (env "RUST_LOG")
    for l in shutdownLog run.listening do
      if filter.allows l.level programName ["message"] then stdout.putStrLn (l.render run.logJson)
    stdout.flush
    return 0
