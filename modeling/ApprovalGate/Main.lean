import ApprovalGate.CommandLine.Run
/-!
# The program

Reads the files and the variables that a command needs, runs it without a network, and prints what it says.
-/
namespace ApprovalGate.CommandLine

/-- What stands at a path; what is there but cannot be read counts as a directory. -/
def readEntry? (path : String) : IO (Option DiskEntry) := do
  match ← (IO.FS.Handle.mk path .read).toBaseIO with
  | .error _ => return none
  | .ok handle => match ← handle.readBinToEnd.toBaseIO with
    | .ok bytes => return some (.file bytes)
    | .error _ => return some .directory

/-- The disk with what stands at a path and with the directories on the way there. -/
def withPath (disk : Disk) (path : String) : IO Disk := do
  let place := Path.ofString path
  match ← readEntry? path with
  | some entry =>
    let disk := (disk.makeDirs? place.parent).getD disk
    return if place.isEmpty then disk else disk.put place entry
  | none => return disk

def readEnvironment : IO Environment :=
  ["CHANGEGATE_HOST", "CHANGEGATE_PORT", "CHANGEGATE_PUBLIC_URL"].foldlM (fun env name => do
    match ← IO.getEnv name with
    | some value => return env.insert name value
    | none => return env) Table.empty

/-- The files that a command reads: its configuration and the store that is named there. -/
def readDisk (env : Environment) : Command → IO Disk
  | .validate path => withPath Disk.empty path
  | .serve (some path) _ _ => do
    let disk ← withPath Disk.empty path
    match (Config.load path disk env).toOption.bind fun c => c.store.path with
    | some store => withPath disk store
    | none => return disk
  | _ => return Disk.empty

def runProgram (args : List String) : IO Nat := do
  match Command.read args with
  | .error refusal =>
    refusal.lines.forM IO.println
    if refusal = .usage then IO.eprintln "error: unexpected arguments"
    return refusal.status
  | .ok (_, command) =>
    let env ← readEnvironment
    let ending ← command.run (fun _ => return none) (← readDisk env command) env
    ending.lines.forM IO.println
    if let some reason := ending.failure then IO.eprintln ("Error: " ++ reason)
    return ending.status

end ApprovalGate.CommandLine

def main (args : List String) : IO UInt32 := return (← ApprovalGate.CommandLine.runProgram args).toUInt32
