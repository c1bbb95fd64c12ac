import Catter.Hook.NonNull
import Catter.Hook.PathResolver

/-! How a hooked call that fails tells its caller: the `exec` functions by -1 and `errno`, the
`posix_spawn` functions by the number itself. -/

namespace Catter.Hook

open Text Library.Lines

-- What the manual says of the two system calls. Whether the symbol is there does not depend on the
-- command.
structure SystemCalls (lacks : LinkerCall → Prop) (linker : Handed → Linked) : Prop where
  missing (handed : Handed) : linker handed = .missing ↔ lacks handed.call
  execve (handed : Handed) (r : ℤ) : handed.call = .execve → linker handed = .returned r → r = -1
  posixSpawn (handed : Handed) (r : ℤ) : handed.call = .posixSpawn →
    linker handed = .returned r → 0 ≤ r

def Resolver.Reports {p : Platform} (resolver : Resolver p) : Prop :=
  ∀ (entry : Entry) (envp : List CString) (file : CString) (why : ℤ),
    entry.resolve resolver envp file = .error why → why = enoent ∨ why = eacces

def Outcome.ret : Outcome → Option Return
  | failed ret => some ret
  | crash => none
  | linked _ ret => ret

-- Without a number the cause is what the called function has left.
def LinkerCall.Tells (call : LinkerCall) (cause : Option ℤ) (ret : Return) : Prop :=
  match call, cause with
  | execve, cause => ret.result = -1 ∧ ret.errno = cause
  | posixSpawn, some why => 0 < why ∧ ret.result = why
  | posixSpawn, none => 0 ≤ ret.result

/-! The resolver's errors. -/

namespace PathResolver

variable {p : Platform} {fs : FileSystem} {around : Surroundings}

lemma verdict_error {text : CString} {why : ℤ} (h : verdict fs text = .error why) :
    why = enoent ∨ why = eacces := by
  rw [verdict] at h
  split_ifs at h
  · exact Or.inl (Except.error.inj h).symm
  · exact Or.inr (Except.error.inj h).symm
  · exact Or.inl (Except.error.inj h).symm

lemma searchLoop_error {file : CString} {path : Str} {fuel : ℕ} {it : Splitter.Iterator}
    {mem : Memory}
    {examined : List Seen} {looked : Looked} {why : ℤ}
    (h : searchLoop p fs around file path fuel it mem examined = some looked)
    (hresult : looked.result = .error why) :
    why = enoent := by
  induction fuel generalizing it mem examined with
  | zero => cases h
  | succ fuel ih =>
    cases it with
    | none =>
      rw [searchLoop, Option.some.injEq] at h
      rw [← h] at hresult
      exact (Except.error.inj hresult).symm
    | some position =>
      obtain ⟨begin_, end_⟩ := position
      rw [searchLoop] at h
      split_ifs at h
      · exact ih h
      · exact ih h
      · cases hassembled :
          assemble p (around.stack begin_) (Splitter.deref path begin_ end_) file with
        | none => simp only [hassembled, reduceCtorEq] at h
        | some candidate =>
          simp only [hassembled] at h
          split at h
          next text hfound =>
            rw [← Option.some.inj h, hfound] at hresult
            cases hresult
          next => exact ih h

lemma fromSearchPath_error {file searchPath : CString} {fuel : ℕ} {mem : Memory} {looked : Looked}
    {why : ℤ}
    (h : fromSearchPath p fs around fuel mem file searchPath = some looked)
    (hresult : looked.result = .error why) :
    why = enoent ∨ why = eacces := by
  rw [fromSearchPath] at h
  split_ifs at h
  · rw [← Option.some.inj h] at hresult
    exact verdict_error hresult
  · exact Or.inl (searchLoop_error h hresult)

lemma fromPath_error {confstr : Option CString} {fuel : ℕ} {mem : Memory} {file : CString}
    {envp : List CString}
    {looked : Looked} {why : ℤ} (h : fromPath p fs around confstr fuel mem file envp = some looked)
    (hresult : looked.result = .error why) : why = enoent ∨ why = eacces := by
  rw [fromPath] at h
  split_ifs at h
  · rw [← Option.some.inj h] at hresult
    exact verdict_error hresult
  · split at h
    · exact fromSearchPath_error h hresult
    · rw [← Option.some.inj h] at hresult
      exact Or.inl (Except.error.inj hresult).symm

end PathResolver

def Resolver.FailsOn {p : Platform} (resolver : Resolver p) (fs : FileSystem)
    (around : Surroundings)
    (confstr : Option CString) (mem : Memory) : Prop :=
  ∀ (entry : Entry) (envp : List CString) (file : CString) (why : ℤ),
    entry.resolve resolver envp file = .error why →
    ∃ fuel looked, entry.look p fs around confstr fuel mem envp file = some looked ∧
      looked.result = .error why

lemma Resolver.FailsOn.reports {p : Platform} {resolver : Resolver p} {fs : FileSystem}
    {around : Surroundings}
    {confstr : Option CString} {mem : Memory} (h : resolver.FailsOn fs around confstr mem) :
    resolver.Reports := by
  intro entry envp file why hwhy
  obtain ⟨fuel, looked, hlook, hresult⟩ := h entry envp file why hwhy
  cases entry with
  | execve path =>
    rw [← Option.some.inj hlook] at hresult
    exact PathResolver.verdict_error hresult
  | posixSpawn path =>
    rw [← Option.some.inj hlook] at hresult
    exact PathResolver.verdict_error hresult
  | execvpe file' => exact PathResolver.fromPath_error hlook hresult
  | posixSpawnp file' => exact PathResolver.fromPath_error hlook hresult
  | execvP file' searchPath => exact PathResolver.fromSearchPath_error hlook hresult

namespace Executor

variable {p : Platform} (e : Executor p)

def handed (entry : Entry) (argv : Argv) (envp : List CString) (path : CString)
    (executable : Resolved p) : Handed :=
  let (builder, command) := e.finalCmdOrError path executable.path argv
  ⟨entry.linkerCall, builder, command, envp⟩

def cause (entry : Entry) (argv : Argv) (envp : List CString) : Option ℤ :=
  match entry.path with
  | none => some efault
  | some path =>
    match entry.resolve e.resolver envp path with
    | .error why => some why
    | .ok executable =>
      match e.linker (e.handed entry argv envp path executable) with
      | .missing => some p.enosys
      | .replaced | .returned _ => none

def TellsWhy (entry : Entry) (argv : Argv) (envp : List CString) : Prop :=
  ∀ ret, (e.call entry argv envp).ret = some ret →
    entry.linkerCall.Tells (e.cause entry argv envp) ret

-- A builder without room for its last string is no call that returns.
def KeepsConvention (lacks : LinkerCall → Prop) (entry : Entry) (envp : List CString) : Prop :=
  match entry.path with
  | none => entry.linkerCall = .execve
  | some path =>
    CmdBuilder.appendNull p e.outside e.outsideSlots e.session.proxyPath e.session.selfId = true ∨
      match entry.linkerCall with
      | .execve => ∃ executable, entry.resolve e.resolver envp path = .ok executable
      | .posixSpawn => lacks .posixSpawn → ∃ why, entry.resolve e.resolver envp path = .error why

variable {e}

lemma cause_of_resolved {entry : Entry} {argv : Argv} {envp : List CString} {path : CString}
    {executable : Resolved p}
    (hpath : entry.path = some path)
    (hresolved : entry.resolve e.resolver envp path = .ok executable) :
    e.cause entry argv envp = match e.linker (e.handed entry argv envp path executable) with
      | .missing => some p.enosys
      | .replaced | .returned _ => none := by
  rw [cause, hpath]
  simp only [hresolved]

lemma ret_of_resolved {entry : Entry} {argv : Argv} {envp : List CString} {path : CString}
    {executable : Resolved p}
    (hpath : entry.path = some path)
    (hresolved : entry.resolve e.resolver envp path = .ok executable)
    (hnull : CmdBuilder.appendNull p e.outside e.outsideSlots e.session.proxyPath e.session.selfId =
      false) :
    (e.call entry argv envp).ret = match e.linker (e.handed entry argv envp path executable) with
      | .replaced => none
      | .missing => some ⟨-1, some p.enosys⟩
      | .returned result => some ⟨result, none⟩ := by
  rw [call_eq, hpath]
  simp only [intercept, hnull, hresolved, link, Outcome.ret, handed]
  rfl

lemma tellsWhy_of_null {entry : Entry} (hpath : entry.path = none) (argv : Argv)
    (envp : List CString) :
    e.TellsWhy entry argv envp ↔ entry.linkerCall = .execve := by
  have hret : (e.call entry argv envp).ret = some ⟨-1, some efault⟩ := by
    rw [call_eq, hpath]
    rfl
  have hcause : e.cause entry argv envp = some efault := by
    rw [cause, hpath]
  rw [TellsWhy, hret, hcause]
  simp only [Option.some.injEq, forall_eq']
  cases entry.linkerCall with
  | execve => exact iff_of_true ⟨rfl, rfl⟩ rfl
  | posixSpawn =>
    refine iff_of_false ?_ (by decide)
    rintro ⟨-, hresult⟩
    exact absurd hresult (by decide)

lemma tellsWhy_of_unresolved (hresolver : e.resolver.Reports) {entry : Entry} {argv : Argv}
    {envp : List CString}
    {path : CString} {why : ℤ} (hpath : entry.path = some path)
    (hwhy : entry.resolve e.resolver envp path = .error why)
    (hnull : CmdBuilder.appendNull p e.outside e.outsideSlots e.session.proxyPath e.session.selfId =
      false) :
    e.TellsWhy entry argv envp ↔ entry.linkerCall = .posixSpawn := by
  have hret : (e.call entry argv envp).ret = some ⟨why, none⟩ := by
    rw [call_eq, hpath]
    simp only [intercept, hnull, hwhy]
    rfl
  have hcause : e.cause entry argv envp = some why := by
    rw [cause, hpath]
    simp only [hwhy]
  have hpos : 0 < why := by
    rcases hresolver entry envp path why hwhy with rfl | rfl <;> decide
  rw [TellsWhy, hret, hcause]
  simp only [Option.some.injEq, forall_eq']
  cases entry.linkerCall with
  | execve =>
    refine iff_of_false ?_ (by decide)
    rintro ⟨hresult, -⟩
    simp only at hresult
    omega
  | posixSpawn => exact iff_of_true ⟨hpos, rfl⟩ rfl

lemma tellsWhy_of_resolved {lacks : LinkerCall → Prop} (hlinker : SystemCalls lacks e.linker)
    {entry : Entry}
    {argv : Argv} {envp : List CString} {path : CString} {executable : Resolved p}
    (hpath : entry.path = some path)
    (hresolved : entry.resolve e.resolver envp path = .ok executable)
    (hnull : CmdBuilder.appendNull p e.outside e.outsideSlots e.session.proxyPath e.session.selfId =
      false) :
    e.TellsWhy entry argv envp ↔ entry.linkerCall = .execve ∨ ¬ lacks .posixSpawn := by
  have hcall : (e.handed entry argv envp path executable).call = entry.linkerCall := rfl
  have hmissing := hlinker.missing (e.handed entry argv envp path executable)
  have hexecve := hlinker.execve (e.handed entry argv envp path executable)
  have hspawn := hlinker.posixSpawn (e.handed entry argv envp path executable)
  rw [hcall] at hmissing hexecve hspawn
  rw [TellsWhy, ret_of_resolved hpath hresolved hnull, cause_of_resolved hpath hresolved]
  cases hlinked : e.linker (e.handed entry argv envp path executable) with
  | replaced =>
    simp only [hlinked, reduceCtorEq, false_iff] at hmissing
    refine iff_of_true (fun ret hret => by cases hret) ?_
    cases hkind : entry.linkerCall with
    | execve => exact Or.inl rfl
    | posixSpawn => exact Or.inr (hkind ▸ hmissing)
  | missing =>
    have hlacks := hmissing.mp hlinked
    simp only [Option.some.injEq, forall_eq']
    cases hkind : entry.linkerCall with
    | execve => exact iff_of_true ⟨rfl, rfl⟩ (Or.inl rfl)
    | posixSpawn =>
      rw [hkind] at hlacks
      apply iff_of_false
      · rintro ⟨hpos, hresult⟩
        simp only at hresult
        omega
      · rintro (hexec | hfound)
        · cases hexec
        · exact hfound hlacks
  | returned r =>
    simp only [hlinked, reduceCtorEq, false_iff] at hmissing
    simp only [Option.some.injEq, forall_eq']
    cases hkind : entry.linkerCall with
    | execve => exact iff_of_true ⟨hexecve r hkind hlinked, rfl⟩ (Or.inl rfl)
    | posixSpawn => exact iff_of_true (hspawn r hkind hlinked) (Or.inr (hkind ▸ hmissing))

theorem fails_as_posix_iff {lacks : LinkerCall → Prop} (hresolver : e.resolver.Reports)
    (hlinker : SystemCalls lacks e.linker) (entry : Entry) (argv : Argv) (envp : List CString) :
    e.TellsWhy entry argv envp ↔ e.KeepsConvention lacks entry envp := by
  rw [KeepsConvention]
  cases hpath : entry.path with
  | none => exact tellsWhy_of_null hpath argv envp
  | some path =>
    simp only
    cases hnull :
      CmdBuilder.appendNull p e.outside e.outsideSlots e.session.proxyPath e.session.selfId with
    | true =>
      refine iff_of_true ?_ (Or.inl rfl)
      intro ret hret
      rw [call_eq, hpath] at hret
      simp only [intercept, hnull, if_true] at hret
      cases hret
    | false =>
      simp only [Bool.false_eq_true, false_or]
      cases hresolved : entry.resolve e.resolver envp path with
      | error why =>
        rw [tellsWhy_of_unresolved hresolver hpath hresolved hnull]
        cases entry.linkerCall <;> simp
      | ok executable =>
        rw [tellsWhy_of_resolved hlinker hpath hresolved hnull]
        cases entry.linkerCall <;> simp

end Executor

def Resolver.nowhere (p : Platform) : Resolver p :=
  { fromCurrentDirectory := fun _ => .error enoent
    fromPath := fun _ _ => .error enoent
    fromSearchPath := fun _ _ => .error enoent }

def noFiles : FileSystem := ⟨fun _ => false, fun _ => false, fun _ => false⟩

namespace PathResolver

variable {p : Platform} (around : Surroundings) (mem : Memory)

lemma fromSearchPath_noFiles (file searchPath : CString) :
    ∃ fuel looked, fromSearchPath p noFiles around fuel mem file searchPath = some looked ∧
      looked.result = .error enoent := by
  by_cases hpath : dirSeparator ∈ file.bytes
  · exact ⟨0, _, if_pos hpath, rfl⟩
  · obtain ⟨looked, hlooked, -, hfinds⟩ := @searchLoop_finds p noFiles around file _ _ _
      (Splitter.at_begin searchPath.bytes) searchPath.no_nul _ (Nat.lt_succ_self _) mem []
    refine ⟨_, looked, (if_neg hpath).trans hlooked, ?_⟩
    have hnone : ((pieces pathSeparator searchPath.bytes).find? fun path =>
        IsCandidate noFiles p path file) = none := by
      rw [List.find?_eq_none]
      intro path _
      simp [IsCandidate, noFiles]
    rw [hnone] at hfinds
    cases hresult : looked.result with
    | error why =>
      rw [hresult] at hfinds
      rw [hfinds.2]
    | ok text =>
      rw [hresult] at hfinds
      obtain ⟨path, hpath', -⟩ := hfinds
      cases hpath'

lemma fromPath_noFiles (file : CString) (envp : List CString) :
    ∃ fuel looked, fromPath p noFiles around none fuel mem file envp = some looked ∧
      looked.result = .error enoent := by
  by_cases hpath : dirSeparator ∈ file.bytes
  · exact ⟨0, _, if_pos hpath, rfl⟩
  · simp only [fromPath, if_neg hpath]
    cases (getEnvValue envp pathKey).or none with
    | none => exact ⟨0, _, rfl, rfl⟩
    | some paths => exact fromSearchPath_noFiles around mem file paths

end PathResolver

lemma Resolver.nowhere_failsOn (p : Platform) (around : Surroundings) (mem : Memory) :
    (Resolver.nowhere p).FailsOn noFiles around none mem := by
  intro entry envp file why hwhy
  have henoent : why = enoent := by
    cases entry <;> exact (Except.error.inj hwhy).symm
  rw [henoent]
  cases entry with
  | execve path => exact ⟨0, _, rfl, rfl⟩
  | posixSpawn path => exact ⟨0, _, rfl, rfl⟩
  | execvpe file' => exact PathResolver.fromPath_noFiles around mem file envp
  | posixSpawnp file' => exact PathResolver.fromPath_noFiles around mem file envp
  | execvP file' searchPath => exact PathResolver.fromSearchPath_noFiles around mem file searchPath

def Executor.nowhere : Executor .linux :=
  { linker := fun handed => if handed.call = .execve then .returned (-1) else .returned 0
    session := Session.onLoad .linux []
    resolver := .nowhere .linux
    outside := fun _ => 0
    outsideSlots := fun _ => none }

theorem Executor.nowhere_spawn_fails_as_posix :
    Executor.nowhere.TellsWhy (.posixSpawn (some (cStr (lit "/bin/cc"))))
      ⟨[cStr (lit "cc")], []⟩ [] := by
  have hresolver : Executor.nowhere.resolver.Reports :=
    (Resolver.nowhere_failsOn .linux ⟨emptyText, emptyText, fun _ _ => 0⟩ fun _ => 0).reports
  have hlinker : SystemCalls (fun _ => False) Executor.nowhere.linker := by
    constructor
    · intro handed
      simp only [nowhere, iff_false]
      split_ifs <;> simp
    · intro handed r hcall hr
      simp only [nowhere, if_pos hcall, Linked.returned.injEq] at hr
      exact hr.symm
    · intro handed r hcall hr
      simp only [nowhere, hcall, reduceCtorEq, if_false, Linked.returned.injEq] at hr
      exact hr.le
  exact (fails_as_posix_iff hresolver hlinker _ _ _).mpr (Or.inr fun h => h.elim)

theorem Executor.nowhere_breaks_convention :
    (Executor.nowhere.call (.execve (some (cStr (lit "/bin/cc")))) ⟨[cStr (lit "cc")], []⟩ []).ret =
        some ⟨2, none⟩ ∧
      ¬ Executor.nowhere.TellsWhy (.execve (some (cStr (lit "/bin/cc"))))
        ⟨[cStr (lit "cc")], []⟩ [] ∧
      ¬ Executor.nowhere.TellsWhy (.posixSpawn none) ⟨[cStr (lit "cc")], []⟩ [] := by
  have hnull : CmdBuilder.appendNull .linux (fun _ => 0) (fun _ => none) none none = false :=
    CmdBuilder.appendNull_of_room .linux (by decide) _ _
  have hret :
    (Executor.nowhere.call (.execve (some (cStr (lit "/bin/cc")))) ⟨[cStr (lit "cc")], []⟩ []).ret =
      some ⟨2, none⟩ := by
    rw [call_eq]
    simp only [Entry.path, intercept]
    rw [if_neg (by exact Bool.eq_false_iff.mp hnull)]
    rfl
  refine ⟨hret, ?_, ?_⟩
  · intro h
    exact absurd (h _ hret).1 (by decide)
  · rw [tellsWhy_of_null rfl]
    decide

end Catter.Hook
