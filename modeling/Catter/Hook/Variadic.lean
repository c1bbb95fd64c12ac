import Catter.Hook.Command

/-! The hooks with a variable argument list, and the vectors that they pass on. -/

namespace Catter.Hook

section

-- `α`: what a pointer that is not null points to, `ε`: an environment.
variable {α ε : Type}

inductive VaArg (α ε : Type)
  | text (ptr : Option α)
  | environment (envp : ε)

abbrev VaList (α ε : Type) := List (VaArg α ε)

def vaArg : VaList α ε → Option (Option α × VaList α ε)
  | .text ptr :: ap => some (ptr, ap)
  | _ => none

def vaArgEnvironment : VaList α ε → Option (ε × VaList α ε)
  | .environment envp :: ap => some (envp, ap)
  | _ => none

def vaLength : VaList α ε → Option ℕ
  | .text none :: _ => some 0
  | .text (some _) :: ap => (vaLength ap).map (· + 1)
  | _ => none

-- An array on the stack; a slot that was not written is `none`.
abbrev Slots (α : Type) := List (Option (Option α))

def Slots.store (argv : Slots α) (idx : ℕ) (ptr : Option α) : Option (Slots α) :=
  if idx < argv.length then some (argv.set idx (some ptr)) else none

def vaCopyN (ap : VaList α ε) (argv : Slots α) (idx : ℕ) : ℕ → Option (Slots α × VaList α ε)
  | 0 => some (argv, ap)
  | argc + 1 => do
    let (ptr, ap) ← vaArg ap
    let argv ← Slots.store argv idx ptr
    vaCopyN ap argv (idx + 1) argc

-- What the three hooks have in common; the list is walked twice.
def collect (first : Option α) (ap : VaList α ε) : Option (Slots α × VaList α ε) := do
  let argc ← vaLength ap
  let argv ← Slots.store (List.replicate (argc + 2) none) 0 first
  vaCopyN ap argv 1 (argc + 1)

inductive Passed (α ε : Type)
  | realExecv (path : Option α) (argv : Slots α)
  | realExecve (path : Option α) (argv : Slots α) (envp : ε)
  | realExecvp (file : Option α) (argv : Slots α)
  | realExecvpe (file : Option α) (argv : Slots α) (envp : ε)
  | executorExecve (path : Option α) (argv : Slots α) (envp : ε)
  | executorExecvpe (file : Option α) (argv : Slots α) (envp : ε)

variable (p : Platform) (inProxy : Bool) (environment : ε)

def execv (path : Option α) (argv : Slots α) : Passed α ε :=
  if inProxy then .realExecv path argv else .executorExecve path argv environment

def execve (path : Option α) (argv : Slots α) (envp : ε) : Passed α ε :=
  if inProxy then .realExecve path argv envp else .executorExecve path argv envp

def execvp (file : Option α) (argv : Slots α) : Passed α ε :=
  if inProxy then .realExecvp file argv else .executorExecvpe file argv environment

-- `arg` is only where the list begins.
def execl (path _arg : Option α) (ap : VaList α ε) : Option (Passed α ε) := do
  let (argv, _) ← collect path ap
  return if inProxy then
      match p with
      | .mac => .realExecv path argv
      | .linux => .realExecve path argv environment
    else .executorExecve path argv environment

def execlp (file _arg : Option α) (ap : VaList α ε) : Option (Passed α ε) := do
  let (argv, _) ← collect file ap
  return if inProxy then
      match p with
      | .mac => .realExecvp file argv
      | .linux => .realExecvpe file argv environment
    else .executorExecvpe file argv environment

def execle (path _arg : Option α) (ap : VaList α ε) : Option (Passed α ε) := do
  let (argv, ap) ← collect path ap
  let (envp, _) ← vaArgEnvironment ap
  return if inProxy then .realExecve path argv envp else .executorExecve path argv envp

/-! What the caller means. -/

def vector (arg : α) (args : List α) : Slots α :=
  (arg :: args).map (fun ptr => some (some ptr)) ++ [some none]

inductive Variadic (ε : Type)
  | execl | execlp | execle (envp : ε)

namespace Variadic

def rest (call : Variadic ε) (args : List α) : VaList α ε :=
  args.map (fun ptr => .text (some ptr)) ++ .text none ::
    match call with
    | execl | execlp => []
    | execle envp => [.environment envp]

def pass (path : Option α) (arg : α) (args : List α) (call : Variadic ε) : Option (Passed α ε) :=
  let ap := call.rest args
  match call with
  | execl => Hook.execl p inProxy environment path (some arg) ap
  | execlp => Hook.execlp p inProxy environment path (some arg) ap
  | execle _ => Hook.execle inProxy path (some arg) ap

def fixed (path : Option α) (argv : Slots α) : Variadic ε → Passed α ε
  | execl => execv inProxy environment path argv
  | execlp => execvp inProxy environment path argv
  | execle envp => execve inProxy path argv envp

end Variadic

-- The calls without an environment use the process's own.
structure Exec (α ε : Type) where
  viaExecutor : Bool
  searches : Bool
  path : Option α
  argv : Slots α
  envp : ε
deriving DecidableEq

def Passed.meaning : Passed α ε → Exec α ε
  | realExecv path argv => ⟨false, false, path, argv, environment⟩
  | realExecve path argv envp => ⟨false, false, path, argv, envp⟩
  | realExecvp file argv => ⟨false, true, file, argv, environment⟩
  | realExecvpe file argv envp => ⟨false, true, file, argv, envp⟩
  | executorExecve path argv envp => ⟨true, false, path, argv, envp⟩
  | executorExecvpe file argv envp => ⟨true, true, file, argv, envp⟩

lemma vaLength_rest (args : List α) (ap : VaList α ε) :
    vaLength (args.map (fun ptr => VaArg.text (some ptr)) ++ .text none :: ap) =
      some args.length := by
  induction args with
  | nil => rfl
  | cons arg args ih =>
    rw [List.map_cons, List.cons_append, vaLength, ih]
    rfl

lemma vaCopyN_rest (args : List α) (ap : VaList α ε) (filled : Slots α) :
    vaCopyN (args.map (fun ptr => VaArg.text (some ptr)) ++ .text none :: ap)
        (filled ++ List.replicate (args.length + 1) none) filled.length (args.length + 1) =
      some (filled ++ (args.map (fun ptr => some (some ptr)) ++ [some none]), ap) := by
  induction args generalizing filled with
  | nil => simp [vaCopyN, vaArg, Slots.store]
  | cons arg args ih =>
    have hnext := ih (filled ++ [some (some arg)])
    rw [List.length_append, List.length_singleton, List.append_assoc, List.append_assoc] at hnext
    have hset :
        (filled ++ List.replicate (args.length + 2) none).set filled.length (some (some arg)) =
          filled ++ ([some (some arg)] ++ List.replicate (args.length + 1) none) := by
      rw [List.set_append_right _ _ le_rfl, Nat.sub_self, List.replicate_succ]
      rfl
    rw [List.length_cons, List.map_cons, List.cons_append, vaCopyN]
    simp only [vaArg, Slots.store, Option.bind_eq_bind, Option.bind_some]
    rw [if_pos (by simp), Option.bind_some, hset, hnext]
    rfl

lemma collect_rest (first : Option α) (args : List α) (ap : VaList α ε) :
    collect first (args.map (fun ptr => VaArg.text (some ptr)) ++ .text none :: ap) =
      some (some first :: (args.map (fun ptr => some (some ptr)) ++ [some none]), ap) := by
  have hcopy := vaCopyN_rest args ap [some first]
  have hstore : Slots.store (List.replicate (args.length + 2) none) 0 first =
      some ([some first] ++ List.replicate (args.length + 1) none) := rfl
  rw [collect, vaLength_rest]
  simp only [Option.bind_eq_bind, Option.bind_some, hstore]
  exact hcopy

lemma vector_eq_iff (path : Option α) (arg : α) (args : List α) :
    some path :: (args.map (fun ptr => some (some ptr)) ++ [some none]) = vector arg args ↔
      path = some arg := by
  simp [vector]

theorem vector_rebuilt_iff (call : Variadic ε) (path : Option α) (arg : α) (args : List α) :
    (call.pass p inProxy environment path arg args).map (Passed.meaning environment) =
        some ((call.fixed inProxy environment path (vector arg args)).meaning environment) ↔
          path = some arg := by
  have hcollect (ap : VaList α ε) := collect_rest path args ap
  rw [← vector_eq_iff path arg args]
  cases call with
  | execl =>
    simp only [Variadic.pass, Variadic.rest, execl, hcollect, Variadic.fixed, execv]
    cases inProxy <;> cases p <;> simp [Passed.meaning]
  | execlp =>
    simp only [Variadic.pass, Variadic.rest, execlp, hcollect, Variadic.fixed, execvp]
    cases inProxy <;> cases p <;> simp [Passed.meaning]
  | execle envp =>
    simp only [Variadic.pass, Variadic.rest, execle, hcollect, Variadic.fixed, execve,
      vaArgEnvironment]
    cases inProxy <;> simp [Passed.meaning]

end

open Text in
theorem path_in_place_of_argument :
    ((Variadic.execl : Variadic (List Str)).pass .linux false [] (some (lit "/bin/ls")) (lit "ls")
      [lit "-l"]).map
        (Passed.meaning []) ≠
      some (((Variadic.execl : Variadic (List Str)).fixed false [] (some (lit "/bin/ls"))
        (vector (lit "ls") [lit "-l"])).meaning []) := by
  decide

end Catter.Hook
