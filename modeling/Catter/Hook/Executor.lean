import Catter.Hook.Session

/-! The executor between a hooked call and the linker, and when the linker gets a command. -/

namespace Catter.Hook

open Text Library.Region

def Platform.enosys : Platform → ℤ
  | linux => 38
  | mac => 78

def efault : ℤ := 14

-- What the resolver returns lies with its terminator in `result_`.
structure Resolved (p : Platform) where
  path : CString
  short : path.bytes.length < p.pathMax

structure Resolver (p : Platform) where
  fromCurrentDirectory : CString → Except ℤ (Resolved p)
  fromPath : CString → List CString → Except ℤ (Resolved p)
  fromSearchPath : CString → CString → Except ℤ (Resolved p)

-- A caller's vector, and the strings that lie behind its null pointer up to the next one.
structure Argv where
  strs : List CString
  behind : List CString

-- The loops start at `argv_in[1]`, behind the null pointer of an empty vector.
def Argv.read (argv : Argv) : List CString :=
  match argv.strs with
  | [] => emptyText :: argv.behind
  | _ :: _ => argv.strs

inductive LinkerCall
  | execve | posixSpawn
deriving DecidableEq

structure Handed where
  call : LinkerCall
  builder : CmdBuilder
  command : Command
  envp : List CString

-- The image is replaced, the symbol is missing, or the call comes back.
inductive Linked
  | replaced
  | missing
  | returned (result : ℤ)

-- `errno` is given where the executor itself sets it.
structure Return where
  result : ℤ
  errno : Option ℤ

inductive Outcome
  | failed (ret : Return)
  | crash
  | linked (handed : Handed) (ret : Option Return)

inductive Entry
  | execve (path : Option CString)
  | execvpe (file : Option CString)
  | execvP (file : Option CString) (searchPath : CString)
  | posixSpawn (path : Option CString)
  | posixSpawnp (file : Option CString)

structure Executor (p : Platform) where
  linker : Handed → Linked
  session : Session
  resolver : Resolver p
  outside : Memory
  outsideSlots : ℕ → Option ℕ

namespace Executor

variable {p : Platform} (e : Executor p)

def cmdBuilder : CmdBuilder :=
  CmdBuilder.construct p e.outside e.outsideSlots e.session.proxyPath e.session.selfId

-- `CHECK_SESSION` with the error text of an invalid session, and the proxy command without one.
def finalCmdOrError (path executable : CString) (argv : Argv) : CmdBuilder × Command :=
  if e.session.isValid then e.cmdBuilder.proxyStr p executable argv.read
  else
    let (builder, command) := e.cmdBuilder.errorStr p invalidSession path (some argv.read)
    if command.valid then (builder, command) else builder.proxyStr p executable argv.read

def link (handed : Handed) : Outcome :=
  .linked handed <| match e.linker handed with
    | .replaced => none
    | .missing => some ⟨-1, some p.enosys⟩
    | .returned result => some ⟨result, none⟩

-- Whatever the resolver says, a command or an error text is built behind `append_ptr`.
def intercept (call : LinkerCall) (resolve : CString → Except ℤ (Resolved p))
    (path : Option CString) (argv : Argv)
    (envp : List CString) : Outcome :=
  match path with
  | none => .failed ⟨-1, some efault⟩
  | some path =>
    if CmdBuilder.appendNull p e.outside e.outsideSlots e.session.proxyPath e.session.selfId then
      .crash
    else match resolve path with
      | .error why => .failed ⟨why, none⟩
      | .ok executable =>
        let (builder, command) := e.finalCmdOrError path executable.path argv
        e.link ⟨call, builder, command, envp⟩

def execve (path : Option CString) (argv : Argv) (envp : List CString) : Outcome :=
  e.intercept .execve e.resolver.fromCurrentDirectory path argv envp

def execvpe (file : Option CString) (argv : Argv) (envp : List CString) : Outcome :=
  e.intercept .execve (fun file => e.resolver.fromPath file envp) file argv envp

def execvP (file : Option CString) (searchPath : CString) (argv : Argv) (envp : List CString) :
    Outcome :=
  e.intercept .execve (fun file => e.resolver.fromSearchPath file searchPath) file argv envp

def posixSpawn (path : Option CString) (argv : Argv) (envp : List CString) : Outcome :=
  e.intercept .posixSpawn e.resolver.fromCurrentDirectory path argv envp

def posixSpawnp (file : Option CString) (argv : Argv) (envp : List CString) : Outcome :=
  e.intercept .posixSpawn (fun file => e.resolver.fromPath file envp) file argv envp

def call (entry : Entry) (argv : Argv) (envp : List CString) : Outcome :=
  match entry with
  | .execve path => e.execve path argv envp
  | .execvpe file => e.execvpe file argv envp
  | .execvP file searchPath => e.execvP file searchPath argv envp
  | .posixSpawn path => e.posixSpawn path argv envp
  | .posixSpawnp file => e.posixSpawnp file argv envp

end Executor

namespace Entry

def path : Entry → Option CString
  | execve path | posixSpawn path => path
  | execvpe file | execvP file _ | posixSpawnp file => file

def linkerCall : Entry → LinkerCall
  | execve _ | execvpe _ | execvP _ _ => .execve
  | posixSpawn _ | posixSpawnp _ => .posixSpawn

def resolve {p : Platform} (resolver : Resolver p) (envp : List CString) :
    Entry → CString → Except ℤ (Resolved p)
  | execve _ | posixSpawn _ => resolver.fromCurrentDirectory
  | execvpe _ | posixSpawnp _ => fun file => resolver.fromPath file envp
  | execvP _ searchPath => fun file => resolver.fromSearchPath file searchPath

end Entry

lemma Executor.call_eq {p : Platform} (e : Executor p) (entry : Entry) (argv : Argv)
    (envp : List CString) :
    e.call entry argv envp =
      e.intercept entry.linkerCall (entry.resolve e.resolver envp) entry.path argv envp := by
  cases entry <;> rfl

lemma Executor.execute_eq {p : Platform} (e : Executor p) (path executable : CString)
    (argv : Argv) :
    execute p e.session e.outside e.outsideSlots path (some executable) argv.read =
      some (e.finalCmdOrError path executable argv) := by
  rw [execute, finalCmdOrError, ← cmdBuilder]
  cases e.session.isValid with
  | true => simp only [if_true]
  | false =>
    simp only [Bool.false_eq_true, if_false]
    generalize e.cmdBuilder.errorStr p invalidSession path (some argv.read) = built
    obtain ⟨builder, command⟩ := built
    cases hvalid : command.valid with
    | true => simp only [if_true]
    | false => simp only [Bool.false_eq_true, if_false]

end Catter.Hook
