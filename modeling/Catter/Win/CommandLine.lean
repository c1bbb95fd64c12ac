import Catter.Rpc.Serde
import Catter.Win.Argv

/-! The command line that the Windows hook builds, and what a program reads back. -/

namespace Catter.Win

open Text Rpc Library.CommandLine

def newline : UInt8 := 10
def verticalTab : UInt8 := 11

-- `find_first_of(" \t\n\v\"")` finds the character.
def isSpecial (c : UInt8) : Bool :=
  c == space || c == tab || c == newline || c == verticalTab || c == doubleQuote

-- The loop of `quote_win32_arg`, after `numBackslashes` backslashes in a row.
def quoteLoop (numBackslashes : ℕ) : Str → Str
  | [] => List.replicate (numBackslashes * 2) backslash
  | c :: cs =>
    if c = backslash then quoteLoop (numBackslashes + 1) cs
    else if c = doubleQuote then
      List.replicate (numBackslashes * 2 + 1) backslash ++ c :: quoteLoop 0 cs
    else List.replicate numBackslashes backslash ++ c :: quoteLoop 0 cs

def quoteWin32Arg (arg : Str) : Str :=
  if arg = [] ∨ arg.find? isSpecial = none then arg
  else doubleQuote :: (quoteLoop 0 arg ++ [doubleQuote])

def cmdlineOf (cmd : Command) : Str :=
  quoteWin32Arg cmd.executable ++ cmd.args.flatMap fun arg => space :: quoteWin32Arg arg

/-! An argument without special characters is copied, and so is a quoted one: the loop doubles
the backslashes that the scanner is going to halve. -/

lemma follows_space {rest : Str} (h : rest = [] ∨ ∃ cs, rest = space :: cs) : Follows rest := by
  obtain rfl | ⟨cs, rfl⟩ := h
  · exact follows_nil
  · exact follows_cons rfl cs

lemma not_special {arg : Str} (hp : ∀ c ∈ arg, isSpecial c = false) :
    (∀ c ∈ arg, isBlank c = false) ∧ doubleQuote ∉ arg := by
  constructor
  · intro c hc
    have hplain := hp c hc
    simp only [isSpecial, Bool.or_eq_false_iff] at hplain
    simp [isBlank, CharT.ofOctet, hplain]
  · intro hquote
    exact absurd (hp _ hquote) (by decide)

lemma replicate_cons_append (n : ℕ) (c : UInt8) (cs : Str) :
    List.replicate n c ++ c :: cs = List.replicate (n + 1) c ++ cs := by
  rw [List.replicate_succ', List.append_assoc, List.singleton_append]

lemma scanArg_quoteLoop (arg rest : Str) (hr : Follows rest) (n : ℕ) :
    scanArg .inside 0 (quoteLoop n arg ++ doubleQuote :: rest) =
      (List.replicate n backslash ++ arg, rest) := by
  induction arg generalizing n with
  | nil =>
    have hslashes : scanArg .inside 0 (List.replicate (n * 2) backslash ++ doubleQuote :: rest) =
        scanArg .inside (0 + n * 2) (doubleQuote :: rest) := scanArg_slashes (by decide) _ _ _
    have hclosing : scanArg .inside (n * 2) (doubleQuote :: rest) =
        prepend (List.replicate n backslash) (scanArg .closing 0 rest) := scanArg_closing n rest
    rw [quoteLoop, hslashes, Nat.zero_add, hclosing, scanArg_follows hr (by decide)]
    simp [prepend]
  | cons c cs ih =>
    rw [quoteLoop]
    by_cases hb : c = backslash
    · rw [if_pos hb, ih, hb, replicate_cons_append]
    · rw [if_neg hb]
      by_cases hq : c = doubleQuote
      · have hslashes (tail : Str) :
            scanArg .inside 0 (List.replicate (n * 2 + 1) backslash ++ doubleQuote :: tail) =
              scanArg .inside (0 + (n * 2 + 1)) (doubleQuote :: tail) :=
          scanArg_slashes (by decide) _ _ _
        have hescaped (tail : Str) : scanArg .inside (n * 2 + 1) (doubleQuote :: tail) =
            prepend (List.replicate n backslash ++ [doubleQuote]) (scanArg .inside 0 tail) :=
          scanArg_escaped (by decide) n tail
        rw [if_pos hq, hq, List.append_assoc, List.cons_append, hslashes, Nat.zero_add,
          hescaped, ih]
        simp [prepend]
      · have hslashes (tail : Str) : scanArg .inside 0 (List.replicate n backslash ++ c :: tail) =
            scanArg .inside (0 + n) (c :: tail) := scanArg_slashes (by decide) _ _ _
        have hletter (tail : Str) : scanArg .inside n (c :: tail) =
            prepend (List.replicate n backslash ++ [c]) (scanArg .inside 0 tail) :=
          scanArg_letter hb hq (Or.inl rfl) n tail
        rw [if_neg hq, List.append_assoc, List.cons_append, hslashes, Nat.zero_add, hletter, ih]
        simp [prepend]

lemma quoteWin32Arg_cases (arg : Str) :
    quoteWin32Arg arg = arg ∧ (∀ c ∈ arg, isSpecial c = false) ∨
      quoteWin32Arg arg = doubleQuote :: (quoteLoop 0 arg ++ [doubleQuote]) := by
  by_cases h : arg = [] ∨ arg.find? isSpecial = none
  · refine Or.inl ⟨if_pos h, ?_⟩
    rcases h with rfl | h
    · simp
    · simpa using h
  · exact Or.inr (if_neg h)

lemma scanArg_quoteWin32Arg (arg rest : Str) (hr : Follows rest) :
    scanArg .outside 0 (quoteWin32Arg arg ++ rest) = (arg, rest) := by
  rcases quoteWin32Arg_cases arg with ⟨he, hp⟩ | he
  · obtain ⟨hblank, hquote⟩ := not_special hp
    rw [he, scanArg_plain hblank hquote hr]
    rfl
  · have hopening (cs : Str) : scanArg .outside 0 (doubleQuote :: cs) = scanArg .inside 0 cs :=
      scanArg_opening cs
    rw [he, List.cons_append, hopening, List.append_assoc, List.singleton_append,
      scanArg_quoteLoop arg rest hr]
    rfl

lemma quoteWin32Arg_nil : quoteWin32Arg [] = [] := rfl

lemma quoteWin32Arg_head (arg : Str) (hne : arg ≠ []) :
    ∃ c cs, quoteWin32Arg arg = c :: cs ∧ isBlank c = false := by
  rcases quoteWin32Arg_cases arg with ⟨he, hp⟩ | he
  · cases arg with
    | nil => exact absurd rfl hne
    | cons c cs =>
      exact ⟨c, cs, he, (not_special hp).1 c List.mem_cons_self⟩
  · exact ⟨_, _, he, by decide⟩

-- The tokeniser between arguments: the next argument, and the text behind it.
def nextArg (cs : Str) : Option (Str × Str) :=
  match cs.dropWhile isBlank with
  | [] => none
  | c :: cs => some (scanArg .outside 0 (c :: cs))

-- Quoting is exact where there is something to quote.
theorem quote_win32_arg_exact (arg rest : Str) (hne : arg ≠ [])
    (hr : rest = [] ∨ ∃ cs, rest = space :: cs) :
    nextArg (quoteWin32Arg arg ++ rest) = some (arg, rest) := by
  obtain ⟨c, cs, he, hc⟩ := quoteWin32Arg_head arg hne
  have hscan := scanArg_quoteWin32Arg arg rest (follows_space hr)
  have hskip : (quoteWin32Arg arg ++ rest).dropWhile isBlank = c :: (cs ++ rest) := by
    rw [he, List.cons_append, List.dropWhile_cons_of_neg (by simp [hc])]
  rw [he, List.cons_append] at hscan
  rw [nextArg, hskip]
  simp only [hscan]

theorem quote_win32_arg_exact_backslash :
    nextArg (quoteWin32Arg (lit "a \\\"\\") ++ lit " b") = some (lit "a \\\"\\", lit " b") :=
  quote_win32_arg_exact (lit "a \\\"\\") (lit " b") (by decide) (Or.inr ⟨lit "b", rfl⟩)

def argsTail (args : List Str) : Str := args.flatMap fun arg => space :: quoteWin32Arg arg

lemma argsTail_follows (args : List Str) : Follows (argsTail args) := by
  cases args with
  | nil => exact follows_nil
  | cons arg args => exact follows_cons rfl _

lemma arguments_argsTail (args : List Str) : arguments (argsTail args) = args.filter (· ≠ []) := by
  induction args with
  | nil => rfl
  | cons arg args ih =>
    have htail : arguments (argsTail (arg :: args)) =
        arguments (quoteWin32Arg arg ++ argsTail args) := arguments_blank rfl _
    by_cases hne : arg = []
    · subst hne
      rw [htail, quoteWin32Arg_nil, List.nil_append, ih]
      simp
    · obtain ⟨c, cs, he, hc⟩ := quoteWin32Arg_head arg hne
      have hscan := scanArg_quoteWin32Arg arg (argsTail args) (argsTail_follows args)
      rw [he, List.cons_append] at hscan htail
      rw [htail, arguments_cons hc, hscan, ih]
      simp [hne]

/-! The program name. -/

lemma quoteLoop_plain (program : Str) (hq : doubleQuote ∉ program) (n : ℕ)
    (hlast : (List.replicate n backslash ++ program).getLast? ≠ some backslash) :
    quoteLoop n program = List.replicate n backslash ++ program := by
  induction program generalizing n with
  | nil =>
    cases n with
    | zero => rfl
    | succ n => simp [List.replicate_succ'] at hlast
  | cons c cs ih =>
    obtain ⟨hc, hcs⟩ : c ≠ doubleQuote ∧ doubleQuote ∉ cs := by
      simpa [eq_comm] using hq
    rw [quoteLoop]
    by_cases hb : c = backslash
    · rw [if_pos hb, ih hcs, hb, replicate_cons_append]
      rw [hb, replicate_cons_append] at hlast
      exact hlast
    · have htail : (List.replicate 0 backslash ++ cs).getLast? ≠ some backslash := by
        cases cs with
        | nil => simp
        | cons d ds => simpa [List.getLast?_append, List.getLast?_cons_cons] using hlast
      rw [if_neg hb, if_neg hc, ih hcs 0 htail]
      rfl

lemma scanProgram_quoteWin32Arg (program rest : Str) (hr : Follows rest)
    (hq : doubleQuote ∉ program)
    (hlast : program.getLast? ≠ some backslash) :
    scanProgram false (quoteWin32Arg program ++ rest) = (program, rest) := by
  rcases quoteWin32Arg_cases program with ⟨he, hp⟩ | he
  · rw [he]
    exact scanProgram_plain (not_special hp).1 hq hr
  · have hopening (cs : Str) : scanProgram false (doubleQuote :: cs) = scanProgram true cs :=
      if_pos rfl
    rw [he, quoteLoop_plain program hq 0 hlast, List.cons_append, hopening, List.append_assoc,
      List.singleton_append]
    exact scanProgram_quoted hq hr

/-! Zero octets: quoting adds none. -/

lemma mem_quoteLoop (arg : Str) (n : ℕ) (c : UInt8) (h : c ∈ quoteLoop n arg) :
    c = backslash ∨ c ∈ arg := by
  induction arg generalizing n with
  | nil => exact Or.inl (List.eq_of_mem_replicate h)
  | cons d ds ih =>
    have hrec (m : ℕ) (hm : c ∈ quoteLoop m ds) : c = backslash ∨ c ∈ d :: ds := by
      rcases ih m hm with hb | hd
      · exact Or.inl hb
      · exact Or.inr (List.mem_cons_of_mem d hd)
    rw [quoteLoop] at h
    split_ifs at h
    · exact hrec _ h
    all_goals
      rcases List.mem_append.mp h with hb | hd
      · exact Or.inl (List.eq_of_mem_replicate hb)
      · rcases List.mem_cons.mp hd with rfl | hd
        · exact Or.inr (by simp)
        · exact hrec 0 hd

lemma zero_notMem_quoteWin32Arg (arg : Str) (h : 0 ∉ arg) : 0 ∉ quoteWin32Arg arg := by
  rcases quoteWin32Arg_cases arg with ⟨he, -⟩ | he
  · rwa [he]
  · intro hz
    rw [he] at hz
    rcases (by simpa [doubleQuote] using hz : (0 : UInt8) ∈ quoteLoop 0 arg) with hl
    rcases mem_quoteLoop arg 0 0 hl with hb | ha
    · exact absurd hb (by decide)
    · exact h ha

lemma zero_notMem_argsTail (args : List Str) (h : ∀ arg ∈ args, 0 ∉ arg) : 0 ∉ argsTail args := by
  intro hz
  obtain ⟨arg, ha, hz⟩ := List.mem_flatMap.mp hz
  rcases List.mem_cons.mp hz with hs | hz
  · exact absurd hs (by decide)
  · exact zero_notMem_quoteWin32Arg arg (h arg ha) hz

lemma splitCommandLine_cmdlineOf (cmd : Command) (hexe : 0 ∉ cmd.executable)
    (hq : doubleQuote ∉ cmd.executable) (hlast : cmd.executable.getLast? ≠ some backslash)
    (hargs : ∀ arg ∈ cmd.args, 0 ∉ arg) :
    splitCommandLine (cmdlineOf cmd) = cmd.executable :: cmd.args.filter (· ≠ []) := by
  have hline : cmdlineOf cmd = quoteWin32Arg cmd.executable ++ argsTail cmd.args := rfl
  have hzero : ∀ c ∈ cmdlineOf cmd, c ≠ 0 := by
    rintro c hc rfl
    rw [hline] at hc
    rcases List.mem_append.mp hc with hc | hc
    · exact zero_notMem_quoteWin32Arg _ hexe hc
    · exact zero_notMem_argsTail _ hargs hc
  have hall : (cmdlineOf cmd).takeWhile (· ≠ CharT.ofOctet 0) = cmdlineOf cmd :=
    List.takeWhile_eq_self_iff.mpr fun c hc => decide_eq_true (hzero c hc)
  rw [splitCommandLine, hall, splitLine, hline,
    scanProgram_quoteWin32Arg _ _ (argsTail_follows cmd.args) hq hlast, arguments_argsTail]

def ReadsBack (cmd : Command) : Prop :=
  splitCommandLine (cmdlineOf cmd) = cmd.executable :: cmd.args

theorem cmdline_reads_back_iff (cmd : Command) (hq : doubleQuote ∉ cmd.executable)
    (hlast : cmd.executable.getLast? ≠ some backslash) (hargs : ∀ arg ∈ cmd.args, 0 ∉ arg) :
    ReadsBack cmd ↔ 0 ∉ cmd.executable ∧ [] ∉ cmd.args := by
  constructor
  · intro h
    have hexe : 0 ∉ cmd.executable := by
      intro hz
      have hhead := (List.cons.inj h).1
      rw [← hhead] at hz
      have hline := mem_scanProgram hz
      exact absurd (List.mem_takeWhile_imp hline) (by decide)
    have hfilter := splitCommandLine_cmdlineOf cmd hexe hq hlast hargs
    rw [h] at hfilter
    have hkept := (List.cons.inj hfilter).2
    exact ⟨hexe, fun hmem => by simpa using List.filter_eq_self.mp hkept.symm [] hmem⟩
  · rintro ⟨hexe, hmem⟩
    rw [ReadsBack, splitCommandLine_cmdlineOf cmd hexe hq hlast hargs, List.filter_eq_self.mpr]
    intro arg harg
    simp only [decide_eq_true_eq]
    rintro rfl
    exact hmem harg

theorem cmdline_reads_back_blank_path :
    ReadsBack ⟨[], lit "C:\\a b\\cc.exe", [lit "-o", lit "x\\"], []⟩ ↔
      0 ∉ lit "C:\\a b\\cc.exe" ∧ [] ∉ [lit "-o", lit "x\\"] :=
  cmdline_reads_back_iff ⟨[], lit "C:\\a b\\cc.exe", [lit "-o", lit "x\\"], []⟩
    (by decide) (by decide) (by decide)

theorem empty_argument_lost :
    splitCommandLine (cmdlineOf ⟨[], lit "cc", [[]], []⟩) = [lit "cc"] ∧
      ¬ ReadsBack ⟨[], lit "cc", [[]], []⟩ := by
  refine ⟨by decide, ?_⟩
  rw [ReadsBack]
  decide

end Catter.Win
