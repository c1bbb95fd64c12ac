import Catter.Hook.NonNull

/-! Which pointers of the caller's vector the builder reads. -/

namespace Catter.Hook

open Text Library.Region

-- What lies at `argv_in`: the strings, the null pointer, and what the memory holds behind it.
def Argv.slots (argv : Argv) : List (Option CString) :=
  argv.strs.map some ++ none :: (argv.behind.map some ++ [none])

lemma Argv.drop_slots (argv : Argv) :
    ∃ rest, argv.slots.drop 1 = argv.read.tail.map some ++ none :: rest := by
  obtain ⟨strs, behind⟩ := argv
  cases strs with
  | nil => exact ⟨[], rfl⟩
  | cons s strs => exact ⟨behind.map some ++ [none], rfl⟩

namespace CmdBuilder

variable (p : Platform)

def storeLoop (b : CmdBuilder) (buf : Buffer) (i : ℕ) :
    List (Option CString) → (CmdBuilder × Buffer × Bool) × List ℕ
  | [] => ((b, buf, true), [])
  | none :: _ => ((b, buf, true), [i])
  | some str :: slots =>
    match storeArg p b buf (some str) with
    | (b, buf, none) => ((b, buf, false), [i])
    | (b, buf, some _) =>
      let (stored, reads) := storeLoop b buf (i + 1) slots
      (stored, i :: reads)

def proxyStrReads (b : CmdBuilder) (path : CString) (argv : Argv) :
    (CmdBuilder × Command) × List ℕ :=
  let rollback (b' : CmdBuilder) :=
    errorStr p { b' with appendPtr := b.appendPtr, appendArgvPtr := b.appendArgvPtr } overflowMsg
      path none
  match storeArgs p b ⟨b.appendPtr, p.bufSize⟩ [commandMark, path] with
  | (b', _, false) => (rollback b', [])
  | (b', buf, true) =>
    match storeLoop p b' buf 1 (argv.slots.drop 1) with
    | ((b', _, false), reads) => (rollback b', reads)
    | ((b', _, true), reads) =>
      (({ b' with argv := Function.update b'.argv b'.appendArgvPtr none, appendPtr := b.appendPtr,
                  appendArgvPtr := b.appendArgvPtr }, .own b'.executablePathPtr), reads)

def pushLoop (buf : Buffer) (area : Memory) (i : ℕ) :
    List (Option CString) → (Memory × Buffer) × List ℕ
  | [] => ((area, buf), [])
  | none :: _ => ((area, buf), [i])
  | some str :: slots =>
    let (area, buf) := pushAll buf area [blank, str]
    let (pushed, reads) := pushLoop buf area (i + 1) slots
    (pushed, i :: reads)

def errorStrReads (b : CmdBuilder) (msg path : CString) (argvIn : Option Argv) :
    (CmdBuilder × Command) × List ℕ :=
  let (area, buf) :=
    pushAll ⟨b.appendPtr, p.bufSize⟩ b.area [errorPrefix, blank, msg, inExecuting, path]
  let ((area, buf), reads) :=
    match argvIn with
    | none => ((area, buf), [])
    | some argv => pushLoop buf area 1 (argv.slots.drop 1)
  match buf.store (some emptyText) area with
  | (area, _, none) => (({ b with area }, .given path (argvIn.map Argv.read)), reads)
  | (area, _, some _) =>
    let argv := Function.update b.argv b.appendArgvPtr (some b.appendPtr)
    (({ b with area, argv := Function.update argv (b.appendArgvPtr + 1) none },
      .own b.executablePathPtr), reads)

/-! The reads do not change what is built. -/

lemma storeLoop_eq (b : CmdBuilder) (buf : Buffer) (i : ℕ) (args : List CString)
    (rest : List (Option CString)) :
    (storeLoop p b buf i (args.map some ++ none :: rest)).1 = storeArgs p b buf args := by
  induction args generalizing b buf i with
  | nil => rfl
  | cons str args ih =>
    rw [List.map_cons, List.cons_append, storeLoop, storeArgs]
    obtain ⟨b', buf', stored⟩ := storeArg p b buf (some str)
    cases stored with
    | none => rfl
    | some stored => exact ih b' buf' (i + 1)

lemma storeArgs_append (b : CmdBuilder) (buf : Buffer) (strs strs' : List CString) :
    storeArgs p b buf (strs ++ strs') =
      match storeArgs p b buf strs with
      | (b, buf, false) => (b, buf, false)
      | (b, buf, true) => storeArgs p b buf strs' := by
  induction strs generalizing b buf with
  | nil => rfl
  | cons str strs ih =>
    rw [List.cons_append, storeArgs, storeArgs]
    obtain ⟨b', buf', stored⟩ := storeArg p b buf (some str)
    cases stored with
    | none => rfl
    | some stored => exact ih b' buf'

lemma proxyStrReads_eq (b : CmdBuilder) (path : CString) (argv : Argv) :
    (proxyStrReads p b path argv).1 = proxyStr p b path argv.read := by
  obtain ⟨rest, hslots⟩ := argv.drop_slots
  have hall : commandMark :: path :: argv.read.tail = [commandMark, path] ++ argv.read.tail := rfl
  have hloop (b' : CmdBuilder) (buf : Buffer) := storeLoop_eq p b' buf 1 argv.read.tail rest
  rw [proxyStr, hall, storeArgs_append, proxyStrReads, hslots]
  generalize storeArgs p b ⟨b.appendPtr, p.bufSize⟩ [commandMark, path] = started
  obtain ⟨b', buf, reached⟩ := started
  cases reached with
  | false => rfl
  | true =>
    simp only
    rw [← hloop]
    generalize storeLoop p b' buf 1 (argv.read.tail.map some ++ none :: rest) = looped
    obtain ⟨⟨b'', buf', stored⟩, reads⟩ := looped
    cases stored <;> rfl

lemma pushLoop_eq (buf : Buffer) (area : Memory) (i : ℕ) (args : List CString)
    (rest : List (Option CString)) :
    pushLoop buf area i (args.map some ++ none :: rest) =
      (pushAll buf area (args.flatMap fun arg => [blank, arg]),
        List.range' i (args.length + 1)) := by
  induction args generalizing buf area i with
  | nil => rfl
  | cons str args ih =>
    rw [List.map_cons, List.cons_append, pushLoop]
    simp only [ih]
    rfl

lemma pushAll_append (buf : Buffer) (area : Memory) (strs strs' : List CString) :
    pushAll buf area (strs ++ strs') =
      let (area, buf) := pushAll buf area strs
      pushAll buf area strs' := by
  induction strs generalizing buf area with
  | nil => rfl
  | cons str strs ih => exact ih _ _

lemma errorStrReads_eq (b : CmdBuilder) (msg path : CString) (argvIn : Option Argv) :
    errorStrReads p b msg path argvIn =
      (errorStr p b msg path (argvIn.map Argv.read),
        match argvIn with
        | none => []
        | some argv => List.range' 1 (argv.read.tail.length + 1)) := by
  have hpush (args : Option (List CString)) :
      pushAll ⟨b.appendPtr, p.bufSize⟩ b.area (errorTexts msg path args) =
        let (area, buf) :=
          pushAll ⟨b.appendPtr, p.bufSize⟩ b.area [errorPrefix, blank, msg, inExecuting, path]
        pushAll buf area ((args.getD []).tail.flatMap fun arg => [blank, arg]) :=
          pushAll_append _ _ _ _
  rw [errorStr, hpush, errorStrReads]
  generalize pushAll ⟨b.appendPtr, p.bufSize⟩ b.area [errorPrefix, blank, msg, inExecuting,
    path] = pushed
  obtain ⟨area, buf⟩ := pushed
  cases argvIn with
  | none =>
    simp only [Option.map_none, Option.getD_none, List.tail_nil, List.flatMap_nil, pushAll]
    generalize buf.store (some emptyText) area = stored
    obtain ⟨area', buf', top⟩ := stored
    cases top <;> rfl
  | some argv =>
    obtain ⟨rest, hslots⟩ := argv.drop_slots
    simp only [hslots, pushLoop_eq, Option.map_some, Option.getD_some]
    generalize pushAll buf area (argv.read.tail.flatMap fun arg => [blank, arg]) = texts
    obtain ⟨area, buf⟩ := texts
    simp only
    generalize buf.store (some emptyText) area = stored
    obtain ⟨area', buf', top⟩ := stored
    cases top <;> rfl

/-! Builders in use. -/

-- As an executor makes one and uses it.
inductive InUse : CmdBuilder → Prop
  | construct (outside : Memory) (outsideSlots : ℕ → Option ℕ) (proxyPath selfId : Option CString)
      (happend : appendNull p outside outsideSlots proxyPath selfId = false) :
      InUse (construct p outside outsideSlots proxyPath selfId)
  | run {b : CmdBuilder} (h : InUse b) (call : Call) : InUse (run p b call).1

lemma errorStr_pointers (b : CmdBuilder) (msg path : CString) (argvIn : Option (List CString)) :
    (errorStr p b msg path argvIn).1.appendPtr = b.appendPtr ∧
      (errorStr p b msg path argvIn).1.appendArgvPtr = b.appendArgvPtr := by
  simp only [errorStr]
  split <;> exact ⟨rfl, rfl⟩

lemma run_pointers (b : CmdBuilder) (call : Call) :
    (run p b call).1.appendPtr = b.appendPtr ∧ (run p b call).1.appendArgvPtr =
      b.appendArgvPtr := by
  cases call with
  | error msg path argvIn => exact errorStr_pointers p b msg path argvIn
  | proxy path argvIn =>
    rw [run, proxyStr]
    split
    · exact ⟨rfl, rfl⟩
    · exact errorStr_pointers p _ _ _ _

lemma storeArg_slot_le (b : CmdBuilder) (buf : Buffer) (str : Option CString) :
    (storeArg p b buf str).1.appendArgvPtr ≤ b.appendArgvPtr + 1 := by
  rw [storeArg]
  split_ifs
  · exact Nat.le_succ _
  · split
    · exact Nat.le_succ _
    · exact le_rfl

lemma construct_slots (outside : Memory) (outsideSlots : ℕ → Option ℕ)
    (proxyPath selfId : Option CString) :
    (construct p outside outsideSlots proxyPath selfId).appendArgvPtr ≤ 3 := by
  let fresh : CmdBuilder :=
    { area := fun k => if k < p.bufSize then 0 else outside k
      argv := fun k => if k < p.maxArgc then none else outsideSlots k
      appendPtr := 0
      appendArgvPtr := 0
      executablePathPtr := none }
  have hfirst := storeArg_slot_le p fresh ⟨0, p.bufSize⟩ proxyPath
  change (constructArgs p outside outsideSlots proxyPath selfId).1.appendArgvPtr ≤ 3
  rw [constructArgs]
  simp only [fresh] at hfirst ⊢
  generalize storeArg p _ ⟨0, p.bufSize⟩ proxyPath = first at hfirst ⊢
  obtain ⟨b₁, buf₁, stored₁⟩ := first
  have hsecond := storeArg_slot_le p b₁ buf₁ (some parentFlag)
  simp only at hfirst ⊢
  generalize storeArg p b₁ buf₁ (some parentFlag) = second at hsecond ⊢
  obtain ⟨b₂, buf₂, stored₂⟩ := second
  have hthird := storeArg_slot_le p b₂ buf₂ selfId
  simp only at hsecond hthird ⊢
  omega

variable {p}

lemma InUse.ready {b : CmdBuilder} (h : InUse p b) :
    b.appendPtr ≤ p.bufSize ∧ b.appendArgvPtr ≤ 3 := by
  induction h with
  | construct outside outsideSlots proxyPath selfId happend =>
    refine ⟨?_, construct_slots p outside outsideSlots proxyPath selfId⟩
    rcases construct_constructed p outside outsideSlots proxyPath selfId with ⟨hnull, -⟩
      | ⟨-, hroom, hbuilt⟩
    · rw [happend] at hnull
      exact absurd hnull Bool.false_ne_true
    · rw [hbuilt.append]
      exact hroom.le
  | run h call ih =>
    rw [(run_pointers p _ call).1, (run_pointers p _ call).2]
    exact ih

/-! What is read. -/

lemma storeLoop_reads (b : CmdBuilder) (buf : Buffer) (i : ℕ) (args : List CString)
    (rest : List (Option CString)) :
    i ∈ (storeLoop p b buf i (args.map some ++ none :: rest)).2 ∧
      ∀ k ∈ (storeLoop p b buf i (args.map some ++ none :: rest)).2, k ≤ i + args.length := by
  induction args generalizing b buf i with
  | nil => simp [storeLoop]
  | cons str args ih =>
    rw [List.map_cons, List.cons_append, storeLoop]
    obtain ⟨b', buf', stored⟩ := storeArg p b buf (some str)
    cases stored with
    | none => simp
    | some stored =>
      refine ⟨List.mem_cons_self, ?_⟩
      intro k hk
      rcases List.mem_cons.mp hk with rfl | hk
      · exact Nat.le_add_right _ _
      · have hle := (ih b' buf' (i + 1)).2 k hk
        rw [List.length_cons]
        omega

lemma mark_fits_iff {b : CmdBuilder} (hb : InUse p b) (path : CString) :
    (storeArgs p b ⟨b.appendPtr, p.bufSize⟩ [commandMark, path]).2.2 = true ↔
      b.appendPtr + size [commandMark, path] ≤ p.bufSize := by
  obtain ⟨hle, hslot⟩ := hb.ready
  have hmax := pathMax_ge p
  have hargc : p.maxArgc = p.pathMax := rfl
  have hlength : [commandMark, path].length = 2 := rfl
  by_cases hroom : b.appendPtr + size [commandMark, path] ≤ p.bufSize
  · obtain ⟨area, argv, hstore, -⟩ :=
      storeArgs_fits p b ⟨b.appendPtr, p.bufSize⟩ [commandMark, path] (by omega) hroom
    simp only [hstore, hroom]
  · obtain ⟨area, argv, slot, buf', hstore, -⟩ := storeArgs_overflows p b ⟨b.appendPtr, p.bufSize⟩
      [commandMark, path] hle (fun h => hroom h.2) (by omega)
    simp only [hstore, hroom, Bool.false_eq_true]

end CmdBuilder

inductive VectorCall
  | proxy (path : CString) (argv : Argv)
  | error (msg path : CString) (argv : Option Argv)

namespace VectorCall

variable (p : Platform) (b : CmdBuilder)

def reads : VectorCall → List ℕ
  | proxy path argv => (b.proxyStrReads p path argv).2
  | error msg path argv => (b.errorStrReads p msg path argv).2

def argv : VectorCall → Option Argv
  | proxy _ argv => some argv
  | error _ _ argv => argv

def ReadsWithin (call : VectorCall) : Prop :=
  ∀ argv ∈ call.argv, ∀ k ∈ call.reads p b, k ≤ argv.strs.length

-- `proxy_str` gives up before it looks at the vector if the mark and the path do not fit.
def scans : VectorCall → Option Argv
  | proxy path argv => if b.appendPtr + size [commandMark, path] ≤ p.bufSize then some argv
    else none
  | error _ _ argv => argv

variable {p b}

lemma within_iff (argv : Argv) {reads : List ℕ} (hfirst : 1 ∈ reads)
    (hle : ∀ k ∈ reads, k ≤ 1 + argv.read.tail.length) :
    (∀ k ∈ reads, k ≤ argv.strs.length) ↔ argv.strs ≠ [] := by
  constructor
  · intro h hempty
    have hone := h 1 hfirst
    rw [hempty, List.length_nil] at hone
    omega
  · intro hne k hk
    obtain ⟨strs, behind⟩ := argv
    cases strs with
    | nil => exact absurd rfl hne
    | cons s strs =>
      have hlast := hle k hk
      simp only [Argv.read, List.tail_cons] at hlast
      rw [List.length_cons]
      omega

theorem reads_within_iff (hb : b.InUse p) (call : VectorCall) :
    call.ReadsWithin p b ↔ ∀ argv ∈ call.scans p b, argv.strs ≠ [] := by
  cases call with
  | error msg path argv =>
    cases argv with
    | none => simp [ReadsWithin, VectorCall.argv, scans]
    | some argv =>
      simp only [ReadsWithin, VectorCall.argv, scans, Option.mem_def, Option.some.injEq, forall_eq']
      apply within_iff
      · simp [reads, CmdBuilder.errorStrReads_eq]
      · intro k hk
        simp only [reads, CmdBuilder.errorStrReads_eq, List.mem_range'_1] at hk
        omega
  | proxy path argv =>
    obtain ⟨rest, hslots⟩ := argv.drop_slots
    have hmark := CmdBuilder.mark_fits_iff hb path
    simp only [ReadsWithin, VectorCall.argv, scans, reads, CmdBuilder.proxyStrReads, Option.mem_def,
      Option.some.injEq,
      forall_eq', hslots]
    generalize CmdBuilder.storeArgs p b ⟨b.appendPtr, p.bufSize⟩ [commandMark, path] =
      started at hmark ⊢
    obtain ⟨b', buf, reached⟩ := started
    cases reached with
    | false =>
      have hroom : ¬ b.appendPtr + size [commandMark, path] ≤ p.bufSize :=
        fun h => Bool.false_ne_true (hmark.mpr h)
      rw [if_neg hroom]
      simp
    | true =>
      have hloop := CmdBuilder.storeLoop_reads (p := p) b' buf 1 argv.read.tail rest
      simp only [hmark.mp rfl, if_true, Option.some.injEq, forall_eq']
      rw [← within_iff argv hloop.1 hloop.2]
      generalize CmdBuilder.storeLoop p b' buf 1 (argv.read.tail.map some ++ none :: rest) = looped
      obtain ⟨⟨b'', buf', stored⟩, reads⟩ := looped
      cases stored <;> rfl

theorem one_argument_reads_within :
    (VectorCall.error invalidSession (cStr (lit "/bin/cc"))
      (some ⟨[cStr (lit "cc")], []⟩)).ReadsWithin .linux
      (CmdBuilder.construct .linux (fun _ => 0) (fun _ => none) none none) := by
  have hb : CmdBuilder.InUse .linux (CmdBuilder.construct .linux (fun _ => 0)
      (fun _ => none) none none) := by
    apply CmdBuilder.InUse.construct
    exact CmdBuilder.appendNull_of_room .linux (by decide) _ _
  apply (reads_within_iff hb _).mpr
  rintro argv hargv
  obtain rfl := Option.mem_some_iff.mp hargv
  exact List.cons_ne_nil _ _

theorem empty_vector_read_past :
    ¬ (VectorCall.error invalidSession (cStr (lit "/bin/cc")) (some ⟨[], []⟩)).ReadsWithin .linux
      (CmdBuilder.construct .linux (fun _ => 0) (fun _ => none) none none) := by
  intro h
  have hread := h ⟨[], []⟩ rfl 1
  simp only [reads, CmdBuilder.errorStrReads_eq] at hread
  exact absurd (hread (by decide)) (by decide)

end VectorCall

end Catter.Hook
