import Catter.Hook.Executor
import Catter.Hook.Paths

/-! The resolver in its two buffers of `PATH_MAX` bytes, and what it makes the system look at. -/

namespace Catter.Hook

open Text Library.Region Library.Lines

def enoent : ℤ := 2

def eacces : ℤ := 13

def dirSeparator : UInt8 := 47

-- `stat` finds a regular file, and `access` with `X_OK` and with `F_OK` succeeds.
structure FileSystem where
  regular : Str → Bool
  executable : Str → Bool
  accessible : Str → Bool

-- The memory that is not the resolver's: the texts behind `result_` and `candidate`, and what
-- `candidate` holds before an entry of the path, by its offset, is put there.
structure Surroundings where
  behindResult : CString
  behindCandidate : CString
  stack : ℕ → Memory

def contents (size : ℕ) (mem : Memory) : Str := (List.range size).map mem

-- The text at the beginning of an array; without a NUL in it, it goes on behind the array.
def textAt (size : ℕ) (mem : Memory) (behind : CString) : CString :=
  cStr (contents size mem ++ behind.bytes)

structure Seen where
  text : CString
  terminated : Bool

structure Looked where
  result : Except ℤ CString
  examined : List Seen
  mem : Memory

namespace PathResolver

variable (p : Platform) (fs : FileSystem) (around : Surroundings)

def verdict (text : CString) : Except ℤ CString :=
  if ! fs.regular text.bytes then .error enoent
  else if fs.executable text.bytes then .ok text
  else if fs.accessible text.bytes then .error eacces
  else .error enoent

-- The result of the copy is ignored.
def fromCurrentDirectory (mem : Memory) (file : CString) : Looked :=
  let (mem, _) := copy file.stored mem 0 p.pathMax
  let text := textAt p.pathMax mem around.behindResult
  { result := verdict fs text
    examined := [⟨text, (contents p.pathMax mem).contains 0⟩]
    mem }

def put (candidate : Memory) (it : Option ℕ) (c : UInt8) : Option (Memory × ℕ) :=
  match it with
  | none => none
  | some k => if k < p.pathMax then some (Function.update candidate k c, k + 1) else none

def assemble (candidate : Memory) (path : Str) (file : CString) : Option Memory := do
  let (candidate, it) := copy path candidate 0 p.pathMax
  let (candidate, it) ← put p candidate it dirSeparator
  let (candidate, it) := copy file.bytes candidate it p.pathMax
  let (candidate, _) ← put p candidate it 0
  return candidate

def searchLoop (file : CString) (path : Str) : ℕ → Splitter.Iterator → Memory → List Seen →
    Option Looked
  | 0, _, _, _ => none
  | _ + 1, none, mem, examined => some ⟨.error enoent, examined, mem⟩
  | fuel + 1, some (begin_, end_), mem, examined =>
    let entry := Splitter.deref path begin_ end_
    let it := Splitter.next path end_
    if entry.isEmpty then searchLoop file path fuel it mem examined
    else if p.pathMax < file.bytes.length + entry.length + 2 then
      searchLoop file path fuel it mem examined
    else
      match assemble p (around.stack begin_) entry file with
      | none => none
      | some candidate =>
        let looked := fromCurrentDirectory p fs around mem
          (textAt p.pathMax candidate around.behindCandidate)
        match looked.result with
        | .ok _ => some { looked with examined := examined ++ looked.examined }
        | .error _ => searchLoop file path fuel it looked.mem (examined ++ looked.examined)

def fromSearchPath (fuel : ℕ) (mem : Memory) (file searchPath : CString) : Option Looked :=
  if dirSeparator ∈ file.bytes then some (fromCurrentDirectory p fs around mem file)
  else searchLoop p fs around file searchPath.bytes fuel (Splitter.begin_ searchPath.bytes) mem []

def pathKey : CString := ⟨lit "PATH", by decide⟩

-- `confstr` is what the C library has for a process without `PATH`.
def fromPath (confstr : Option CString) (fuel : ℕ) (mem : Memory) (file : CString)
    (envp : List CString) : Option Looked :=
  if dirSeparator ∈ file.bytes then some (fromCurrentDirectory p fs around mem file)
  else
    match (getEnvValue envp pathKey).or confstr with
    | some paths => fromSearchPath p fs around fuel mem file paths
    | none => some ⟨.error enoent, [], mem⟩

end PathResolver

/-! Texts in an array. -/

lemma contents_of_holds {size : ℕ} {mem : Memory} {xs : Str} (h : Holds mem 0 xs)
    (hle : xs.length ≤ size) :
    ∃ rest, contents size mem = xs ++ rest := by
  refine ⟨(contents size mem).drop xs.length, ?_⟩
  have htake : (contents size mem).take xs.length = xs := by
    apply List.ext_getElem
    · simp [contents, hle]
    · intro k hk hk'
      have hheld := h k hk'
      rw [Nat.zero_add] at hheld
      simp [contents, hheld]
  conv_lhs => rw [← List.take_append_drop xs.length (contents size mem), htake]

lemma textAt_of_holds {size : ℕ} {mem : Memory} {text : CString} (h : Holds mem 0 text.stored)
    (hle : text.stored.length ≤ size) (behind : CString) :
    textAt size mem behind = text ∧ (contents size mem).contains 0 = true := by
  obtain ⟨rest, hcontents⟩ := contents_of_holds h hle
  rw [textAt, hcontents, CString.stored]
  refine ⟨CString.ext ?_, by simp⟩
  change ((text.bytes ++ [0] ++ rest) ++ behind.bytes).takeWhile (· ≠ 0) = text.bytes
  rw [List.append_assoc, List.append_assoc]
  exact upTo_append_cons text.no_nul (rest ++ behind.bytes)

lemma copy_fills (src : Str) (mem : Memory) (dst dstEnd : ℕ) (hle : dst ≤ dstEnd)
    (h : dstEnd < dst + src.length) :
    Holds (copy src mem dst dstEnd).1 dst (src.take (dstEnd - dst)) := by
  induction src generalizing mem dst with
  | nil =>
    rw [List.length_nil] at h
    omega
  | cons c src ih =>
    rw [List.length_cons] at h
    rw [copy]
    split_ifs with hend
    · rw [hend, Nat.sub_self, List.take_zero]
      exact holds_nil _ _
    · have hsub : dstEnd - dst = dstEnd - (dst + 1) + 1 := by omega
      rw [hsub, List.take_succ_cons, holds_cons]
      obtain ⟨mem', hcopy, hsame⟩ :=
        copy_overflows src (Function.update mem dst c) (dst + 1) dstEnd (by omega) (by omega)
      refine ⟨?_, ih (Function.update mem dst c) (dst + 1) (by omega) (by omega)⟩
      simp only [hcopy]
      rw [hsame dst (by omega), Function.update_self]

namespace PathResolver

variable {p : Platform} (fs : FileSystem) (around : Surroundings) (mem : Memory)

lemma verdict_cases (text : CString) :
    verdict fs text = .ok text ∧ (fs.regular text.bytes && fs.executable text.bytes) = true ∨
      ∃ why, verdict fs text = .error why ∧ (fs.regular text.bytes && fs.executable text.bytes) =
        false := by
  rw [verdict]
  cases fs.regular text.bytes with
  | false => exact Or.inr ⟨_, rfl, rfl⟩
  | true =>
    cases fs.executable text.bytes with
    | true => exact Or.inl ⟨rfl, rfl⟩
    | false => cases fs.accessible text.bytes <;> exact Or.inr ⟨_, rfl, rfl⟩

lemma fromCurrentDirectory_fits {file : CString} (h : file.bytes.length < p.pathMax) :
    ∃ mem', fromCurrentDirectory p fs around mem file = ⟨verdict fs file, [⟨file, true⟩], mem'⟩ ∧
      SameOutside 0 p.pathMax mem mem' := by
  have hstored : file.stored.length = file.bytes.length + 1 := List.length_append
  obtain ⟨mem', hcopy, hholds, hsame⟩ := copy_fits file.stored mem 0 p.pathMax (by omega)
  obtain ⟨htext, hterminated⟩ :=
    textAt_of_holds hholds (by omega : file.stored.length ≤ p.pathMax) around.behindResult
  refine ⟨mem', ?_, hsame.mono le_rfl (by omega)⟩
  rw [fromCurrentDirectory, hcopy]
  simp only [htext, hterminated]

lemma fromCurrentDirectory_overflows {file : CString} (h : p.pathMax ≤ file.bytes.length) :
    ∃ text, (fromCurrentDirectory p fs around mem file).examined = [⟨text, false⟩] := by
  have hstored : file.stored.length = file.bytes.length + 1 := List.length_append
  have hfilled := copy_fills file.stored mem 0 p.pathMax (Nat.zero_le _) (by omega)
  rw [Nat.sub_zero, CString.stored, List.take_append_of_le_length h] at hfilled
  have htaken : (file.bytes.take p.pathMax).length = p.pathMax := List.length_take_of_le h
  obtain ⟨rest, hcontents⟩ := contents_of_holds hfilled htaken.le
  have hrest : rest = [] := by
    have hlength := congrArg List.length hcontents
    rw [List.length_append, htaken] at hlength
    simp only [contents, List.length_map, List.length_range] at hlength
    exact List.eq_nil_of_length_eq_zero (by omega)
  rw [hrest, List.append_nil] at hcontents
  have hunterminated :
      (contents p.pathMax (copy (file.bytes ++ [0]) mem 0 p.pathMax).1).contains 0 = false := by
    rw [hcontents, List.contains_eq_mem, decide_eq_false_iff_not]
    exact fun hmem => file.no_nul (List.mem_of_mem_take hmem)
  refine ⟨textAt p.pathMax (copy file.stored mem 0 p.pathMax).1 around.behindResult, ?_⟩
  rw [fromCurrentDirectory]
  simp only [CString.stored, hunterminated]

/-! The search path. -/

lemma put_fits (candidate : Memory) {k : ℕ} (hk : k < p.pathMax) (c : UInt8) :
    put p candidate (some k) c = some (Function.update candidate k c, k + 1) := if_pos hk

lemma assemble_fits (candidate : Memory) {path : Str} {file : CString}
    (h : file.bytes.length + path.length + 2 ≤ p.pathMax) :
    ∃ candidate', assemble p candidate path file = some candidate' ∧
      Holds candidate' 0 (path ++ dirSeparator :: (file.bytes ++ [0])) ∧
        SameOutside 0 p.pathMax candidate candidate' := by
  obtain ⟨c₁, hcopy₁, hholds₁, hsame₁⟩ := copy_fits path candidate 0 p.pathMax (by omega)
  obtain ⟨c₂, hcopy₂, hholds₂, hsame₂⟩ :=
    copy_fits file.bytes (Function.update c₁ path.length dirSeparator) (path.length + 1) p.pathMax
      (by omega)
  rw [Nat.zero_add] at hcopy₁ hsame₁
  have hput₁ := put_fits c₁ (by omega : path.length < p.pathMax) dirSeparator
  have hput₂ := put_fits c₂ (by omega : path.length + 1 + file.bytes.length < p.pathMax) 0
  refine ⟨Function.update c₂ (path.length + 1 + file.bytes.length) 0, ?_, ?_, ?_⟩
  · rw [assemble, hcopy₁]
    simp only [hput₁, Option.bind_eq_bind, Option.bind_some, hcopy₂, hput₂]
    rfl
  · rw [holds_append, holds_cons, holds_append, Nat.zero_add]
    have hlast :
      SameOutside (path.length + 1 + file.bytes.length) (path.length + 1 + file.bytes.length + 1) c₂
        (Function.update c₂ (path.length + 1 + file.bytes.length) 0) :=
          sameOutside_update c₂ 0 le_rfl (Nat.lt_succ_self _)
    refine ⟨?_, ?_, hholds₂.frame hlast (Or.inl le_rfl), ?_⟩
    · have hmark : SameOutside path.length (path.length + 1) c₁
        (Function.update c₁ path.length dirSeparator) :=
        sameOutside_update c₁ _ le_rfl (Nat.lt_succ_self _)
      have hheld := hholds₁.frame hmark (Or.inl (Nat.zero_add _).le)
      exact (hheld.frame hsame₂ (Or.inl (by omega))).frame hlast (Or.inl (by omega))
    · rw [hlast _ (by omega), hsame₂ _ (by omega), Function.update_self]
    · exact holds_cons.mpr ⟨Function.update_self _ _ _, holds_nil _ _⟩
  · apply (hsame₁.mono le_rfl (by omega)).trans
    apply (sameOutside_update c₁ _ (Nat.zero_le _) (by omega : path.length < p.pathMax)).trans
    apply (hsame₂.mono (Nat.zero_le _) (by omega)).trans
    exact sameOutside_update c₂ _ (Nat.zero_le _)
      (by omega : path.length + 1 + file.bytes.length < p.pathMax)

def candidate (path : Str) (file : CString) : Str := path ++ dirSeparator :: file.bytes

def IsCandidate (p : Platform) (path : Str) (file : CString) : Bool :=
  path ≠ [] ∧ path.length + file.bytes.length + 2 ≤ p.pathMax ∧
    fs.regular (candidate path file) = true ∧
    fs.executable (candidate path file) = true

lemma tried {path : Str} {file : CString} (hnul : 0 ∉ path) (stack : Memory)
    (hroom : file.bytes.length + path.length + 2 ≤ p.pathMax) :
    ∃ built text mem', assemble p stack path file = some built ∧ text.bytes = candidate path file ∧
      fromCurrentDirectory p fs around mem (textAt p.pathMax built around.behindCandidate) =
        ⟨verdict fs text, [⟨text, true⟩], mem'⟩ ∧ SameOutside 0 p.pathMax mem mem' := by
  obtain ⟨built, hbuilt, hholds, -⟩ := assemble_fits stack hroom
  have hslash : (0 : UInt8) ≠ dirSeparator := by decide
  let text : CString := ⟨candidate path file, by
    rw [candidate, List.mem_append, List.mem_cons]
    simp [hnul, hslash, file.no_nul]⟩
  have hstored : text.stored = path ++ dirSeparator :: (file.bytes ++ [0]) := by
    simp [text, CString.stored, candidate]
  have hlength : text.bytes.length = path.length + file.bytes.length + 1 := by
    simp only [text, candidate, List.length_append, List.length_cons]
    omega
  rw [← hstored] at hholds
  have hsize : text.stored.length = text.bytes.length + 1 := List.length_append
  obtain ⟨htext, -⟩ :=
    textAt_of_holds hholds (by omega : text.stored.length ≤ p.pathMax) around.behindCandidate
  obtain ⟨mem', hlooked, hsame⟩ :=
    fromCurrentDirectory_fits fs around mem (by omega : text.bytes.length < p.pathMax)
  refine ⟨built, text, mem', hbuilt, rfl, ?_, hsame⟩
  rw [htext, hlooked]

def Finds (found : Option Str) (file : CString) : Except ℤ CString → Prop
  | .ok text => ∃ path, found = some path ∧ text.bytes = candidate path file
  | .error why => found = none ∧ why = enoent

lemma searchLoop_finds {file : CString} {path rest : Str} {it : Splitter.Iterator}
    (hat : Splitter.At path it rest)
    (hpath : 0 ∉ path) {fuel : ℕ} (hfuel : rest.length < fuel) (mem : Memory)
    (examined : List Seen) :
    ∃ looked, searchLoop p fs around file path fuel it mem examined = some looked ∧
      SameOutside 0 p.pathMax mem looked.mem ∧
      Finds ((pieces pathSeparator rest).find? fun path => IsCandidate fs p path file) file
        looked.result := by
  induction fuel generalizing it rest mem examined with
  | zero => exact absurd hfuel (Nat.not_lt_zero _)
  | succ fuel ih =>
    cases hat with
    | atEnd => exact ⟨_, rfl, SameOutside.refl _ _ _, by simp [Finds]⟩
    | @entry start hlt =>
      have hne : path.drop start ≠ [] := by
        rw [ne_eq, List.drop_eq_nil_iff]
        omega
      have hpos := List.length_pos_iff.mpr hne
      have hreach := reach_pos (d := pathSeparator) hne
      have hnext := Splitter.at_next hlt
      have hfewer : ((path.drop start).drop (reach pathSeparator (path.drop start))).length <
          fuel := by
        have hlength := @List.length_drop _ (reach pathSeparator (path.drop start))
          (path.drop start)
        omega
      have hnul : 0 ∉ upTo pathSeparator (path.drop start) := fun hmem =>
        hpath (List.mem_of_mem_drop ((List.takeWhile_prefix _).subset hmem))
      rw [searchLoop, Splitter.deref_eq, pieces_of_ne_nil hne, List.find?_cons]
      generalize upTo pathSeparator (path.drop start) = entry at hnul ⊢
      simp only
      split_ifs with hempty hlong
      · have hnot : IsCandidate fs p entry file = false := by
          simp [IsCandidate, List.isEmpty_iff.mp hempty]
        rw [hnot]
        exact ih hnext hfewer mem examined
      · have hnot : IsCandidate fs p entry file = false := by
          rw [IsCandidate, decide_eq_false_iff_not]
          omega
        rw [hnot]
        exact ih hnext hfewer mem examined
      · have hroom : file.bytes.length + entry.length + 2 ≤ p.pathMax := by omega
        obtain ⟨built, text, mem', hbuilt, htext, hlooked, hsame⟩ :=
          tried fs around mem hnul (around.stack start) hroom
        have hentry : entry ≠ [] := fun h => hempty (List.isEmpty_iff.mpr h)
        have hcandidate : IsCandidate fs p entry file =
            (fs.regular text.bytes && fs.executable text.bytes) := by
          simp [IsCandidate, hentry, ← htext,
            (by omega : entry.length + file.bytes.length + 2 ≤ p.pathMax)]
        rw [hbuilt, hcandidate]
        rcases verdict_cases fs text with ⟨hverdict, hfound⟩ | ⟨why, hverdict, hmissed⟩
        · simp only [hlooked, hverdict, hfound]
          exact ⟨_, rfl, hsame, entry, rfl, htext⟩
        · simp only [hlooked, hverdict, hmissed]
          obtain ⟨looked, hrest, hsame', hfinds⟩ :=
            ih hnext hfewer mem' (examined ++ [⟨text, true⟩])
          exact ⟨looked, hrest, hsame.trans hsame', hfinds⟩

theorem first_candidate_found {file : CString} (hfile : dirSeparator ∉ file.bytes)
    (searchPath : CString) {fuel : ℕ}
    (hfuel : searchPath.bytes.length < fuel) :
    ∃ looked, fromSearchPath p fs around fuel mem file searchPath = some looked ∧
      SameOutside 0 p.pathMax mem looked.mem ∧
      Finds ((searchPath.bytes.splitOn pathSeparator).find? fun path => IsCandidate fs p path file)
        file looked.result := by
  have hempty : IsCandidate fs p [] file = false := by simp [IsCandidate]
  rw [fromSearchPath, if_neg hfile,
    ← find?_pieces (q := fun path => IsCandidate fs p path file) hempty searchPath.bytes]
  exact searchLoop_finds fs around (Splitter.at_begin _) searchPath.no_nul hfuel mem []

def binCc : FileSystem where
  regular path := path == lit "/bin/cc"
  executable path := path == lit "/bin/cc"
  accessible path := path == lit "/bin/cc"

def emptySurroundings : Surroundings := ⟨emptyText, emptyText, fun _ _ => 0⟩

theorem first_candidate_found_third_entry :
    ∃ looked, fromSearchPath .linux binCc emptySurroundings 20 (fun _ => 0) (cStr (lit "cc"))
        (cStr (lit ":/usr:/bin")) = some looked ∧
      Finds (some (lit "/bin")) (cStr (lit "cc")) looked.result := by
  have hplain : dirSeparator ∉ (cStr (lit "cc")).bytes := by decide
  obtain ⟨looked, hlooked, -, hfinds⟩ :=
    first_candidate_found (p := .linux) binCc emptySurroundings (fun _ => 0) hplain
    (cStr (lit ":/usr:/bin")) (by decide : _ < 20)
  exact ⟨looked, hlooked, hfinds⟩

end PathResolver

/-! The five calls. -/

namespace Entry

def takesPath (entry : Entry) (file : CString) : Prop :=
  match entry with
  | execve _ | posixSpawn _ => True
  | execvpe _ | execvP _ _ | posixSpawnp _ => dirSeparator ∈ file.bytes

def look (p : Platform) (fs : FileSystem) (around : Surroundings) (confstr : Option CString)
    (fuel : ℕ) (mem : Memory)
    (envp : List CString) (entry : Entry) (file : CString) : Option Looked :=
  match entry with
  | execve _ | posixSpawn _ => some (PathResolver.fromCurrentDirectory p fs around mem file)
  | execvpe _ | posixSpawnp _ => PathResolver.fromPath p fs around confstr fuel mem file envp
  | execvP _ searchPath => PathResolver.fromSearchPath p fs around fuel mem file searchPath

end Entry

structure ResolvesSafely (p : Platform) (file : CString) (looked : Looked) : Prop where
  examined : ∀ seen ∈ looked.examined, seen.text = file ∧ seen.terminated = true
  returned : ∀ text, looked.result = .ok text → text = file
  tooLong : p.pathMax ≤ file.bytes.length → looked.examined = [] ∧ ∃ why, looked.result = .error why

lemma resolvesSafely_of_short {p : Platform} (fs : FileSystem) (around : Surroundings)
    (mem : Memory) {file : CString}
    (hshort : file.bytes.length < p.pathMax) :
    ResolvesSafely p file (PathResolver.fromCurrentDirectory p fs around mem file) := by
  obtain ⟨mem', hlooked, -⟩ := PathResolver.fromCurrentDirectory_fits fs around mem hshort
  rw [hlooked]
  constructor
  · intro seen hseen
    rw [List.mem_singleton.mp hseen]
    exact ⟨rfl, rfl⟩
  · intro text htext
    rcases PathResolver.verdict_cases fs file with ⟨hverdict, -⟩ | ⟨why, hverdict, -⟩
    · simp only [hverdict, Except.ok.injEq] at htext
      exact htext.symm
    · simp only [hverdict, reduceCtorEq] at htext
  · intro hlong
    omega

lemma not_resolvesSafely_of_long {p : Platform} (fs : FileSystem) (around : Surroundings)
    (mem : Memory) {file : CString}
    (hlong : p.pathMax ≤ file.bytes.length) :
    ¬ ResolvesSafely p file (PathResolver.fromCurrentDirectory p fs around mem file) := by
  intro hsafe
  obtain ⟨text, hexamined⟩ := PathResolver.fromCurrentDirectory_overflows fs around mem hlong
  have hseen := hsafe.examined ⟨text, false⟩ (by rw [hexamined]; exact List.mem_singleton.mpr rfl)
  exact Bool.false_ne_true hseen.2

theorem path_resolved_safely_iff {p : Platform} (fs : FileSystem) (around : Surroundings)
    (confstr : Option CString)
    (fuel : ℕ) (mem : Memory) (envp : List CString) {entry : Entry} {file : CString}
    (hpath : entry.takesPath file) :
    ∃ looked, entry.look p fs around confstr fuel mem envp file = some looked ∧
      (ResolvesSafely p file looked ↔ file.bytes.length < p.pathMax) := by
  have hlook : entry.look p fs around confstr fuel mem envp file =
      some (PathResolver.fromCurrentDirectory p fs around mem file) := by
    cases entry with
    | execve path => rfl
    | posixSpawn path => rfl
    | execvpe file' => exact if_pos hpath
    | execvP file' searchPath => exact if_pos hpath
    | posixSpawnp file' => exact if_pos hpath
  refine ⟨_, hlook, ?_⟩
  constructor
  · intro hsafe
    by_contra hlong
    exact not_resolvesSafely_of_long fs around mem (Nat.le_of_not_lt hlong) hsafe
  · exact resolvesSafely_of_short fs around mem

theorem short_path_resolved_safely :
    ∃ looked, (Entry.execve (some (cStr (lit "/bin/cc")))).look .linux PathResolver.binCc
      PathResolver.emptySurroundings
        none 1 (fun _ => 7) [] (cStr (lit "/bin/cc")) = some looked ∧
      ResolvesSafely .linux (cStr (lit "/bin/cc")) looked := by
  have hpath : (Entry.execve (some (cStr (lit "/bin/cc")))).takesPath (cStr (lit "/bin/cc")) :=
    trivial
  obtain ⟨looked, hlook, hsafe⟩ :=
    path_resolved_safely_iff (p := .linux) PathResolver.binCc PathResolver.emptySurroundings
    none 1 (fun _ => 7) [] hpath
  exact ⟨looked, hlook, hsafe.mpr (by decide)⟩

def ofLength (n : ℕ) : CString := ⟨List.replicate n 97, by simp [List.mem_replicate]⟩

theorem long_path_looked_at :
    ∃ text, (PathResolver.fromCurrentDirectory .linux PathResolver.binCc
      PathResolver.emptySurroundings (fun _ => 7)
        (ofLength 4096)).examined = [⟨text, false⟩] ∧
      ∀ looked, (Entry.execve (some (ofLength 4096))).look .linux PathResolver.binCc
        PathResolver.emptySurroundings none 1
        (fun _ => 7) [] (ofLength 4096) = some looked →
          ¬ ResolvesSafely .linux (ofLength 4096) looked := by
  have hlong : Platform.linux.pathMax ≤ (ofLength 4096).bytes.length := List.length_replicate.ge
  obtain ⟨text, hexamined⟩ :=
    PathResolver.fromCurrentDirectory_overflows PathResolver.binCc PathResolver.emptySurroundings
    (fun _ => 7) hlong
  refine ⟨text, hexamined, ?_⟩
  intro looked hlook
  rw [← Option.some.inj hlook]
  exact not_resolvesSafely_of_long _ _ _ hlong

end Catter.Hook
