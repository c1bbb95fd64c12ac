import Catter.Library.ProgramName
import Catter.Proxy.Main
import Catter.Win.Argv

/-! The detour of `CreateProcess`: it puts catter-proxy in front of an intercepted command line,
and the proxy splits the line again. -/

namespace Catter.Win

open Text Library

variable {α : Type} [DecidableEq α] [CharT α]

open CommandLine.Letters (quote slash)

def literal (s : String) : List α := (lit s).map CharT.ofOctet

-- A text that a pointer is given to, up to its null character.
structure CText (α : Type) [CharT α] where
  text : List α
  no_nul : CharT.ofOctet 0 ∉ text

-- `parent_path() / EXE_NAME`.
def getCatterExePath (dir : List α) : List α :=
  if dir = [] ∨ dir.getLast? = some (CharT.ofOctet backslash) ∨
    dir.getLast? = some (CharT.ofOctet 47) then
    dir ++ literal "catter-proxy.exe"
  else dir ++ literal "\\" ++ literal "catter-proxy.exe"

def concatCmdline (applicationName : Option (List α)) (commandLine : List α) : List α :=
  match applicationName with
  | none => commandLine
  | some name => literal "\"" ++ name ++ literal "\" " ++ commandLine

def convertedCmdline (exe rpcId : List α) (applicationName : Option (List α))
    (commandLine : List α) : List α :=
  exe ++ literal " -p " ++ rpcId ++ literal " -- " ++ concatCmdline applicationName commandLine

-- What the detour passes on unchanged is left out.
structure CreateProcess (α : Type) [CharT α] where
  applicationName : Option (CText α)
  commandLine : CText α

-- The process that the payload was injected into: its directory has no blank, and the id was
-- put into the environment in decimal.
structure Host (α : Type) [DecidableEq α] [CharT α] where
  dir : CText α
  rpcId : CText α
  dir_no_blank : ∀ c ∈ dir.text, CommandLine.Letters.isBlank c = false
  dir_no_quote : quote ∉ dir.text
  rpcId_plain : CommandLine.IsPlain rpcId.text

namespace Host

variable (host : Host α)

def exe : List α := getCatterExePath host.dir.text

def detour (call : CreateProcess α) : List α :=
  convertedCmdline host.exe host.rpcId.text (call.applicationName.map CText.text)
    call.commandLine.text

end Host

def createProcessA (host : Host UInt8) (call : CreateProcess UInt8) : List UInt8 := host.detour call

def createProcessW (host : Host UInt16) (call : CreateProcess UInt16) : List UInt16 :=
  host.detour call

-- What `main` and `build_raw_cmd` read behind the mark.
def readCommand (argv : List (List α)) : Option (List α × List (List α)) :=
  match argv with
  | _ :: flag :: _ :: mark :: executable :: args =>
    if flag = literal "-p" ∧ mark = literal "--" then some (executable, args) else none
  | _ => none

namespace CreateProcess

variable (call : CreateProcess α)

def original : List α × List (List α) :=
  let split := CommandLine.splitLine call.commandLine.text
  (call.applicationName.elim split.1 CText.text, split.2)

-- The command line alone, with a program name that reads the same as an argument, or an
-- application name and no other name behind it.
def Splices : Prop :=
  match call.applicationName with
  | none =>
    CommandLine.StartsWord call.commandLine.text ∧
      CommandLine.plainProgram .outside false call.commandLine.text = true
  | some name => name.text.getLast? ≠ some slash ∧ ¬ CommandLine.StartsWord call.commandLine.text

end CreateProcess

lemma literal_octets (s : String) : (literal s : Str) = lit s := List.map_id (lit s)

lemma readArguments_iff (argv : List Str) (parent : ℤ) (executable : Str) (args : List Str) :
    Proxy.readArguments argv = .command parent executable args ↔
      (∃ text, argv[2]? = some text ∧ Proxy.stoi text = .ok parent) ∧
        readCommand argv = some (executable, args) := by
  match argv with
  | [] | [_] | [_, _] | [_, _, _] => simp [Proxy.readArguments, readCommand]
  | _ :: flag :: text :: mark :: rest =>
    rw [Proxy.readArguments]
    by_cases hflag : flag = lit "-p"
    · rw [if_neg (by simpa using hflag)]
      cases hstoi : Proxy.stoi text with
      | error why => simp [hstoi]
      | ok parent' =>
        by_cases hmark : mark = lit "--"
        · cases rest <;> simp [hstoi, hflag, hmark, Proxy.buildRawCmd, readCommand, literal_octets]
        · cases rest <;> simp [hstoi, hmark, readCommand, literal_octets]
    · rw [if_pos hflag]
      cases rest <;> simp [hflag, readCommand, literal_octets]

/-! What the proxy reads. -/

lemma isBlank_space : CommandLine.Letters.isBlank (CharT.ofOctet space : α) = true :=
  isBlank_ofOctet space

lemma isPlain_map {os : Str} (hne : os ≠ []) (h : ∀ o ∈ os, isBlank o = false ∧ o ≠ doubleQuote) :
    CommandLine.IsPlain (os.map CharT.ofOctet : List α) := by
  constructor
  · simpa using hne
  · intro c hc
    obtain ⟨o, ho, rfl⟩ := List.mem_map.mp hc
    exact (isBlank_ofOctet o).trans (h o ho).1
  · intro hquote
    obtain ⟨o, ho, heq⟩ := List.mem_map.mp hquote
    exact (h o ho).2 (CharT.injective heq)

lemma literal_isPlain {s : String} (hne : lit s ≠ [])
    (h : ∀ o ∈ lit s, isBlank o = false ∧ o ≠ doubleQuote) :
    CommandLine.IsPlain (literal s : List α) := isPlain_map hne h

omit [DecidableEq α] in
lemma literal_no_nul {s : String} (h : 0 ∉ lit s) : (CharT.ofOctet 0 : α) ∉ literal s := by
  intro hnul
  obtain ⟨o, ho, heq⟩ := List.mem_map.mp hnul
  rw [← CharT.injective heq] at h
  exact h ho

lemma forall_mem_getCatterExePath {dir : List α} {q : α → Prop} (hdir : ∀ c ∈ dir, q c)
    (hslash : ∀ c ∈ (literal "\\" : List α), q c)
    (hname : ∀ c ∈ (literal "catter-proxy.exe" : List α), q c) :
    ∀ c ∈ getCatterExePath dir, q c := by
  intro c hc
  rw [getCatterExePath] at hc
  split_ifs at hc
  · rcases List.mem_append.mp hc with hc | hc
    · exact hdir c hc
    · exact hname c hc
  · rcases List.mem_append.mp hc with hc | hc
    · rcases List.mem_append.mp hc with hc | hc
      · exact hdir c hc
      · exact hslash c hc
    · exact hname c hc

section Lines

variable (host : Host α) (call : CreateProcess α)

lemma Host.exe_no_blank : ∀ c ∈ host.exe, CommandLine.Letters.isBlank c = false := by
  apply forall_mem_getCatterExePath host.dir_no_blank
  · exact (literal_isPlain (by decide) (by decide)).no_blank
  · exact (literal_isPlain (by decide) (by decide)).no_blank

lemma getCatterExePath_no_quote {dir : List α} (hdir : quote ∉ dir) :
    quote ∉ getCatterExePath dir := by
  have hall : ∀ c ∈ getCatterExePath dir, c ≠ quote := by
    apply forall_mem_getCatterExePath
    · rintro c hc rfl
      exact hdir hc
    · rintro c hc rfl
      exact (literal_isPlain (by decide) (by decide)).no_quote hc
    · rintro c hc rfl
      exact (literal_isPlain (by decide) (by decide)).no_quote hc
  exact fun h => hall quote h rfl

lemma getCatterExePath_no_nul (dir : CText α) : CharT.ofOctet 0 ∉ getCatterExePath dir.text := by
  have hall : ∀ c ∈ getCatterExePath dir.text, c ≠ CharT.ofOctet 0 := by
    apply forall_mem_getCatterExePath
    · rintro c hc rfl
      exact dir.no_nul hc
    · rintro c hc rfl
      exact literal_no_nul (by decide) hc
    · rintro c hc rfl
      exact literal_no_nul (by decide) hc
  exact fun h => hall _ h rfl

def spliced : List α := concatCmdline (call.applicationName.map CText.text) call.commandLine.text

omit [DecidableEq α] in
lemma spliced_no_nul : CharT.ofOctet 0 ∉ spliced call := by
  have hline := call.commandLine.no_nul
  rw [spliced]
  cases hname : call.applicationName with
  | none => exact hline
  | some name =>
    have hopen : CharT.ofOctet 0 ∉ (literal "\"" : List α) := literal_no_nul (by decide)
    have hclose : CharT.ofOctet 0 ∉ (literal "\" " : List α) := literal_no_nul (by decide)
    simp only [Option.map_some, concatCmdline, List.mem_append, not_or]
    exact ⟨⟨⟨hopen, name.no_nul⟩, hclose⟩, hline⟩

lemma detour_eq :
    host.detour call = host.exe ++ CharT.ofOctet space :: (literal "-p" ++ CharT.ofOctet space ::
      (host.rpcId.text ++ CharT.ofOctet space ::
        (literal "--" ++ CharT.ofOctet space :: spliced call))) := by
  have hflag : lit " -p " = space :: (lit "-p" ++ [space]) := by decide
  have hmark : lit " -- " = space :: (lit "--" ++ [space]) := by decide
  simp [Host.detour, convertedCmdline, literal, hflag, hmark, spliced]

lemma splitCommandLine_detour :
    splitCommandLine (host.detour call) =
      [host.exe, literal "-p", host.rpcId.text, literal "--"] ++
        CommandLine.arguments (spliced call) := by
  have hblank : CommandLine.Letters.isBlank (CharT.ofOctet space : α) = true := isBlank_space
  have hflag : CommandLine.IsPlain (literal "-p" : List α) :=
    literal_isPlain (by decide) (by decide)
  have hmark : CommandLine.IsPlain (literal "--" : List α) :=
    literal_isPlain (by decide) (by decide)
  have hall : (host.detour call).takeWhile (· ≠ CharT.ofOctet 0) = host.detour call := by
    rw [List.takeWhile_eq_self_iff]
    rintro c hc
    rw [decide_eq_true_eq]
    rintro rfl
    have hspace : (CharT.ofOctet 0 : α) ≠ CharT.ofOctet space := CharT.injective.ne (by decide)
    have hflag : (CharT.ofOctet 0 : α) ∉ literal "-p" := literal_no_nul (by decide)
    have hmark : (CharT.ofOctet 0 : α) ∉ literal "--" := literal_no_nul (by decide)
    rw [detour_eq] at hc
    simp [getCatterExePath_no_nul host.dir, Host.exe, hspace, hflag, host.rpcId.no_nul, hmark,
      spliced_no_nul] at hc
  rw [splitCommandLine, hall, detour_eq, CommandLine.splitLine,
    CommandLine.scanProgram_plain host.exe_no_blank (getCatterExePath_no_quote host.dir_no_quote)
      (CommandLine.follows_cons hblank _)]
  simp only [CommandLine.arguments_blank hblank, CommandLine.arguments_plain hflag hblank,
    CommandLine.arguments_plain host.rpcId_plain hblank, CommandLine.arguments_plain hmark hblank]
  rfl

lemma readCommand_detour (executable : List α) (args : List (List α)) :
    readCommand (splitCommandLine (host.detour call)) = some (executable, args) ↔
      CommandLine.arguments (spliced call) = executable :: args := by
  rw [splitCommandLine_detour]
  cases CommandLine.arguments (spliced call) with
  | nil => simp [readCommand]
  | cons first rest => simp [readCommand]

lemma arguments_eq_iff (line : List α) :
    CommandLine.arguments line = (CommandLine.splitLine line).2 ↔
      ¬ CommandLine.StartsWord line := by
  constructor
  · intro h hstarts
    exact CommandLine.arguments_ne hstarts h
  · intro hstarts
    cases line with
    | nil => rfl
    | cons c cs =>
      have hc : CommandLine.Letters.isBlank c = true := by
        by_contra hc
        exact hstarts ⟨c, rfl, Bool.not_eq_true _ ▸ hc⟩
      rw [CommandLine.splitLine, CommandLine.scanProgram,
        if_neg (CommandLine.ne_of_isBlank hc CommandLine.Letters.isBlank_quote), hc]
      rfl

theorem forwarded_iff (hname : ∀ name ∈ call.applicationName, quote ∉ name.text) :
    readCommand (splitCommandLine (host.detour call)) = some call.original ↔ call.Splices := by
  rw [CreateProcess.original, CreateProcess.Splices, readCommand_detour, spliced]
  cases happ : call.applicationName with
  | none => exact CommandLine.arguments_eq_splitLine_iff call.commandLine.text
  | some name =>
    have hopen : (literal "\"" : List α) = [quote] := rfl
    have hclose : (literal "\" " : List α) = [quote, CharT.ofOctet space] := rfl
    have hline : concatCmdline (some name.text) call.commandLine.text =
        quote :: (name.text ++ quote :: CharT.ofOctet space :: call.commandLine.text) := by
      simp [concatCmdline, hopen, hclose]
    rw [Option.map_some, hline]
    simp only [Option.elim_some]
    rw [CommandLine.arguments_quoted_iff (hname name happ) isBlank_space, arguments_eq_iff]

end Lines

def sampleHost : Host UInt8 where
  dir := ⟨lit "C:\\catter", by decide⟩
  rpcId := ⟨lit "7", by decide⟩
  dir_no_blank := by decide
  dir_no_quote := by decide
  rpcId_plain := ⟨by decide, by decide, by decide⟩

theorem forwarded_behind_application :
    readCommand (splitCommandLine (createProcessA sampleHost
      ⟨some ⟨lit "C:\\a b\\cc.exe", by decide⟩, lit " -c x", by decide⟩)) =
        some (lit "C:\\a b\\cc.exe", [lit "-c", lit "x"]) := by
  apply (forwarded_iff sampleHost ⟨some ⟨lit "C:\\a b\\cc.exe", by decide⟩, lit " -c x",
    by decide⟩ ?_).mpr
  · refine ⟨by decide, ?_⟩
    rintro ⟨c, hc, hblank⟩
    obtain rfl := Option.mem_some_iff.mp hc
    exact absurd hblank (by decide)
  · rintro name hname
    obtain rfl := Option.mem_some_iff.mp hname
    decide

theorem name_forwarded_as_argument :
    let call : CreateProcess UInt8 := ⟨some ⟨lit "C:\\cc.exe", by decide⟩, lit "cc -c", by decide⟩
    readCommand (splitCommandLine (createProcessA sampleHost call)) =
      some (lit "C:\\cc.exe", [lit "cc", lit "-c"]) ∧
      readCommand (splitCommandLine (createProcessA sampleHost call)) ≠ some call.original := by
  decide

end Catter.Win
