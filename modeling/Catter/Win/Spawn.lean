import Catter.Library.VerbatimWords
import Catter.Win.Detour

/-! `uv::async::spawn` on Windows, where libuv is told to take the arguments verbatim: it is
how catter starts its root proxy, and a proxy a command that it need not hook. -/

namespace Catter.Win

open Text Library

/-- `line`, without the null pointer behind the last one. -/
def spawnArgs (exePath : CText UInt8) (args : List (CText UInt8)) : List (CText UInt8) :=
  exePath :: args

/-- The command line that libuv makes of verbatim arguments: a space between each two. -/
def verbatimLine (args : List (CText UInt8)) : Str := [space].intercalate (args.map CText.text)

def spawnLine (exePath : CText UInt8) (args : List (CText UInt8)) : Str :=
  verbatimLine (spawnArgs exePath args)

lemma intercalate_eq (sep : UInt8) (first : Str) (rest : List Str) :
    [sep].intercalate (first :: rest) = first ++ rest.flatMap (sep :: ·) := by
  induction rest generalizing first with
  | nil => simp [List.intercalate]
  | cons w rest ih =>
    rw [List.intercalate_cons_cons, ih, List.flatMap_cons]
    simp

lemma isPlain_iff (word : Str) : CommandLine.IsPlain word ↔
    word ≠ [] ∧ ∀ c ∈ word, isBlank c = false ∧ c ≠ doubleQuote := by
  constructor
  · intro h
    refine ⟨h.nonempty, fun c hc => ⟨h.no_blank c hc, ?_⟩⟩
    rintro rfl
    exact h.no_quote hc
  · rintro ⟨hne, hall⟩
    exact ⟨hne, fun c hc => (hall c hc).1, fun hquote => (hall _ hquote).2 rfl⟩

lemma spawnLine_eq (exePath : CText UInt8) (args : List (CText UInt8)) :
    spawnLine exePath args = exePath.text ++ (args.map CText.text).flatMap (space :: ·) :=
  intercalate_eq _ _ _

lemma spawnLine_no_nul (exePath : CText UInt8) (args : List (CText UInt8)) :
    ∀ c ∈ spawnLine exePath args, c ≠ 0 := by
  rintro c hc rfl
  rw [spawnLine_eq, List.mem_append, List.mem_flatMap] at hc
  rcases hc with hc | ⟨word, hword, hc⟩
  · exact exePath.no_nul hc
  · obtain ⟨arg, -, rfl⟩ := List.mem_map.mp hword
    exact arg.no_nul ((List.mem_cons.mp hc).resolve_left (by decide))

/-- The process that is spawned reads the arguments that it was meant to get exactly where none of
them is empty and none, the program's path included, has a blank or a double quote. -/
theorem spawned_as_meant_iff (exePath : CText UInt8) (args : List (CText UInt8)) :
    splitCommandLine (spawnLine exePath args) = exePath.text :: args.map CText.text ↔
      (∀ c ∈ exePath.text, isBlank c = false ∧ c ≠ doubleQuote) ∧
      ∀ arg ∈ args, arg.text ≠ [] ∧ ∀ c ∈ arg.text, isBlank c = false ∧ c ≠ doubleQuote := by
  have hwhole : (spawnLine exePath args).takeWhile (· ≠ 0) = spawnLine exePath args :=
    List.takeWhile_eq_self_iff.mpr fun c hc => decide_eq_true (spawnLine_no_nul exePath args c hc)
  have hsplit : splitCommandLine (spawnLine exePath args) = exePath.text :: args.map CText.text ↔
      CommandLine.splitLine (exePath.text ++ (args.map CText.text).flatMap (space :: ·)) =
        (exePath.text, args.map CText.text) := by
    rw [splitCommandLine]
    have hsame : (spawnLine exePath args).takeWhile (· ≠ CharT.ofOctet 0) =
      spawnLine exePath args := hwhole
    simp only [hsame, List.cons.injEq]
    rw [← Prod.mk.injEq, Prod.mk.eta, spawnLine_eq]
  rw [hsplit, CommandLine.splitLine_verbatim_iff rfl, ← and_assoc]
  apply and_congr
  · constructor
    · rintro ⟨hblank, hquote⟩ c hc
      refine ⟨hblank c hc, ?_⟩
      rintro rfl
      exact hquote hc
    · intro h
      exact ⟨fun c hc => (h c hc).1, fun hquote => (h _ hquote).2 rfl⟩
  · simp only [List.forall_mem_map, isPlain_iff]

example :
    splitCommandLine (spawnLine ⟨lit "catter-proxy.exe", by decide⟩ [⟨lit "--", by decide⟩,
      ⟨lit "a b", by decide⟩]) =
    [lit "catter-proxy.exe", lit "--", lit "a", lit "b"] := by decide

end Catter.Win
