import Catter.Win.Detour

/-! The proxy's own path at the beginning of the converted command line: it stands there
without quotes. -/

namespace Catter.Win

open Text Library

variable {α : Type} [DecidableEq α] [CharT α]

open CommandLine.Letters (quote)

-- Where catter is installed, any directory that Windows allows, and the id in decimal.
structure Installation (α : Type) [DecidableEq α] [CharT α] where
  dir : CText α
  rpcId : CText α
  dir_no_quote : quote ∉ dir.text
  rpcId_plain : CommandLine.IsPlain rpcId.text

namespace Installation

variable (p : Installation α) (call : CreateProcess α)

def exe : List α := getCatterExePath p.dir.text

def detour : List α :=
  convertedCmdline p.exe p.rpcId.text (call.applicationName.map CText.text) call.commandLine.text

def StartsProxy : Prop :=
  (splitCommandLine (p.detour call)).take 4 = [p.exe, literal "-p", p.rpcId.text, literal "--"]

instance : Decidable (p.StartsProxy call) := inferInstanceAs (Decidable (_ = _))

def host (h : ∀ c ∈ p.dir.text, CommandLine.Letters.isBlank c = false) : Host α :=
  ⟨p.dir, p.rpcId, h, p.dir_no_quote, p.rpcId_plain⟩

lemma startsProxy_of_no_blank (h : ∀ c ∈ p.dir.text, CommandLine.Letters.isBlank c = false) :
    p.StartsProxy call := by
  have hsplit : splitCommandLine (p.detour call) = _ := splitCommandLine_detour (p.host h) call
  rw [StartsProxy, hsplit]
  rfl

lemma exe_blank (h : ∃ c ∈ p.dir.text, CommandLine.Letters.isBlank c = true) :
    ∃ c ∈ p.exe, CommandLine.Letters.isBlank c = true := by
  obtain ⟨c, hc, hblank⟩ := h
  refine ⟨c, ?_, hblank⟩
  rw [exe, getCatterExePath]
  split_ifs
  · exact List.mem_append_left _ hc
  · rw [List.append_assoc]
    exact List.mem_append_left _ hc

lemma program_short (h : ∃ c ∈ p.dir.text, CommandLine.Letters.isBlank c = true) :
    ∃ program args, splitCommandLine (p.detour call) = program :: args ∧
      program.length < p.exe.length := by
  have hnul : ∀ c ∈ p.exe, decide (c ≠ CharT.ofOctet 0) = true := by
    intro c hc
    rw [decide_eq_true_iff]
    rintro rfl
    exact getCatterExePath_no_nul p.dir hc
  refine ⟨_, _, rfl, ?_⟩
  rw [detour, convertedCmdline, List.append_assoc, List.append_assoc, List.append_assoc,
    List.takeWhile_append_of_pos hnul]
  exact CommandLine.scanProgram_stops (getCatterExePath_no_quote p.dir_no_quote) (p.exe_blank h) _

end Installation

theorem starts_proxy_iff (p : Installation α) (call : CreateProcess α) :
    p.StartsProxy call ↔ ∀ c ∈ p.dir.text, CommandLine.Letters.isBlank c = false := by
  constructor
  · intro hstarts
    by_contra hblank
    simp only [not_forall, Bool.not_eq_false, exists_prop] at hblank
    obtain ⟨program, args, hsplit, hshort⟩ := p.program_short call hblank
    rw [Installation.StartsProxy, hsplit, List.take_succ_cons] at hstarts
    rw [(List.cons.inj hstarts).1] at hshort
    exact lt_irrefl _ hshort
  · exact p.startsProxy_of_no_blank call

def programFiles : Installation UInt8 where
  dir := ⟨lit "C:\\Program Files\\catter", by decide⟩
  rpcId := ⟨lit "12", by decide⟩
  dir_no_quote := by decide
  rpcId_plain := ⟨by decide, by decide, by decide⟩

theorem programFiles_splits_path :
    ¬ ∀ (p : Installation UInt8) (call : CreateProcess UInt8), p.StartsProxy call := by
  intro hclaim
  exact absurd (hclaim programFiles ⟨none, lit "cc -c a.c", by decide⟩) (by decide)

end Catter.Win
