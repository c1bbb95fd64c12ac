import Catter.Library.ShellWords
import Catter.Library.Lines
import Catter.Hook.Environment
import Catter.Proxy.Conversation

/-! `locate_exe`: the line that it hands to the shell, and what it takes from the answer. -/

namespace Catter.Proxy

open Text Library.Lines Library.ShellWords
open Hook (CString cStr cStr_of_no_nul)

def lineEnd : UInt8 := 10

-- What a line printed, and how its shell ended; without a status `pclose` was -1.
structure ShellRun where
  output : Str
  status : Option ℕ

-- `popen`, by the line; nothing where there is no pipe.
structure Shell where
  run : Str → Option ShellRun

def wexitstatus (status : ℕ) : ℕ := status / 256 % 256

def fgets (size : ℕ) (output : Str) : Option Str :=
  if output = [] then none else some (output.take (min (size - 1) (reach lineEnd output)))

def findCmd (executable : Str) : Str := lit "command -v " ++ executable

def readResult (output : Str) : Str :=
  match fgets 128 output with
  | none => []
  | some buffer =>
    let result := (cStr buffer).bytes
    if result.getLast? = some lineEnd then result.dropLast else result

namespace Shell

variable (sh : Shell)

def locateExe (executable : Str) : Except Exn Str :=
  match sh.run (cStr (findCmd executable)).bytes with
  | none => .error (.std (lit "popen failed when locating executable"))
  | some ran =>
    let result := readResult ran.output
    match ran.status with
    | none => .error (.std (lit "command -v failed to locate executable"))
    | some status =>
      if wexitstatus status ≠ 0 then .error (.std (lit "command -v failed to locate executable"))
      else if result = [] then .error (.std (lit "executable not found"))
      else .ok result

end Shell

/-! The line. -/

def shellRole (c : UInt8) : Role :=
  if c = 32 ∨ c = 9 then .blank
  else if c = 10 then .newline
  else if c ∈ lit ";&|<>()" then .operator
  else if c ∈ lit "$`" then .expansion
  else if c = 92 then .escape
  else if c = 39 then .single
  else if c = 34 then .double
  else if c = 35 then .comment
  else if c = 126 then .tilde
  else if c ∈ lit "*?" then .star
  else if c = 91 then .opening
  else if c = 93 then .closing
  else if c = 33 then .negation
  else if c = 47 then .slash
  else if c = 45 then .dash
  else .plain

structure PlainName (name : Str) : Prop where
  word : PlainWord shellRole name
  operand : name.length ≤ 1 ∨ ∀ c ∈ name.head?, shellRole c ≠ .dash

def ReadAsGiven (executable : Str) : Prop :=
  lineWords shellRole (findCmd executable) = some [lit "command", lit "-v", executable] ∧
    operands shellRole [lit "-v", executable] = [executable]

lemma lineWords_findCmd (executable : Str) :
    lineWords shellRole (findCmd executable) =
      (lineWords shellRole executable).map fun ws => lit "command" :: lit "-v" :: ws := by
  have hcommand : PlainWord shellRole (lit "command") :=
    ⟨by decide, by decide, by decide, by decide⟩
  have hflag : PlainWord shellRole (lit "-v") := ⟨by decide, by decide, by decide, by decide⟩
  have hblank : shellRole 32 = .blank := by decide
  have hline : findCmd executable = lit "command" ++ 32 :: (lit "-v" ++ 32 :: executable) := rfl
  rw [hline, lineWords_plain_append hcommand hblank, lineWords_plain_append hflag hblank,
    Option.map_map]
  rfl

lemma operands_flag (executable : Str) :
    operands shellRole [lit "-v", executable] = operands shellRole [executable] := by
  have hflag : lit "-v" = [45, 118] := rfl
  have hdash : shellRole 45 = .dash := by decide
  have hletter : shellRole 118 ≠ .dash := by decide
  rw [hflag, operands, if_pos hdash, if_neg hletter]

theorem name_read_as_given_iff (executable : CString) :
    ReadAsGiven executable.bytes ↔ PlainName executable.bytes := by
  have hwords : lineWords shellRole (findCmd executable.bytes) =
      some [lit "command", lit "-v", executable.bytes] ↔
        lineWords shellRole executable.bytes = some [executable.bytes] := by
    rw [lineWords_findCmd, Option.map_eq_some_iff]
    constructor
    · rintro ⟨ws, hws, hall⟩
      rw [hws, List.cons.inj (List.cons.inj hall).2 |>.2]
    · intro hws
      exact ⟨_, hws, rfl⟩
  rw [ReadAsGiven, hwords, lineWords_eq_singleton_iff, operands_flag, operands_singleton_iff]
  exact ⟨fun h => ⟨h.1, h.2⟩, fun h => ⟨h.word, h.operand⟩⟩

example : lineWords shellRole (lit "a\\ b 'c  d'\"e\\\"f\" \"\" [g # h") =
    some [lit "a b", lit "c  de\"f", [], lit "[g"] := by decide

theorem name_not_read_as_given :
    ¬ ReadAsGiven (lit "a;b") ∧ lineWords shellRole (findCmd (lit "a;b")) = none ∧
      lineWords shellRole (findCmd (lit "my cc")) =
        some [lit "command", lit "-v", lit "my", lit "cc"] := by
  refine ⟨?_, by decide, by decide⟩
  rintro ⟨hwords, -⟩
  exact absurd hwords (by decide)

/-! The answer. -/

lemma shown_subset {output : Str} {n : ℕ} {c : UInt8}
    (h : c ∈ upTo 0 ((upTo lineEnd output).take n)) :
    c ≠ lineEnd := by
  have hbuffer := (List.takeWhile_prefix _).subset h
  have hline := List.mem_takeWhile_imp (List.mem_of_mem_take hbuffer)
  simpa using hline

lemma getLast?_shown_ne (output : Str) (n : ℕ) :
    (upTo 0 ((upTo lineEnd output).take n)).getLast? ≠ some lineEnd :=
  fun h => shown_subset (List.mem_of_getLast? h) rfl

lemma readResult_eq (output : Str) :
    readResult output = upTo 0 ((upTo lineEnd output).take 127) := by
  have hkept (buffer : Str) (hfgets : fgets 128 output = some buffer)
      (hbuffer : buffer = (upTo lineEnd output).take 127) :
      readResult output = upTo 0 ((upTo lineEnd output).take 127) := by
    rw [readResult, hfgets]
    simp only
    change (if (upTo 0 buffer).getLast? = some lineEnd then (upTo 0 buffer).dropLast
      else upTo 0 buffer) = _
    rw [hbuffer, if_neg (getLast?_shown_ne output 127)]
  by_cases hnil : output = []
  · rw [hnil]
    rfl
  · have hfgets : fgets 128 output = some (output.take (min 127 (reach lineEnd output))) :=
      if_neg hnil
    by_cases hmem : lineEnd ∈ output
    · obtain ⟨line, rest, rfl, hline⟩ := List.eq_append_cons_of_mem hmem
      rw [reach_append_cons hline] at hfgets
      rcases Nat.lt_or_ge line.length 127 with hshort | hlong
      · have htake : (line ++ lineEnd :: rest).take (min 127 (line.length + 1)) =
            line ++ [lineEnd] := by
          rw [(Nat.min_eq_right hshort : min 127 (line.length + 1) = line.length + 1),
            List.take_length_add_append,
            List.take_one]
          rfl
        rw [htake] at hfgets
        rw [readResult, hfgets, upTo_append_cons hline, List.take_of_length_le hshort.le]
        simp only
        change (if (upTo 0 (line ++ [lineEnd])).getLast? = some lineEnd then
          (upTo 0 (line ++ [lineEnd])).dropLast
          else upTo 0 (line ++ [lineEnd])) = _
        by_cases hnul : 0 ∈ line
        · have hlast := getLast?_shown_ne (line ++ lineEnd :: rest) 127
          rw [upTo_append_cons hline, List.take_of_length_le hshort.le] at hlast
          rw [upTo_of_mem_left hnul, if_neg hlast]
        · rw [upTo_append_of_not_mem hnul, upTo_of_not_mem hnul]
          have hnewline : upTo 0 [lineEnd] = [lineEnd] := rfl
          rw [hnewline, List.getLast?_concat, if_pos rfl, List.dropLast_concat]
      · apply hkept _ hfgets
        rw [upTo_append_cons hline, Nat.min_eq_left (by omega), List.take_append_of_le_length hlong]
    · apply hkept _ hfgets
      rw [reach, if_neg hmem, upTo_of_not_mem hmem, List.take_eq_take_iff]
      omega

lemma shown_eq_iff {text : Str} (hnul : 0 ∉ text) (hline : lineEnd ∉ text) (output : Str) (n : ℕ) :
    upTo 0 ((upTo lineEnd output).take n) = text ↔
      text.length ≤ n ∧ text <+: output ∧
        (text.length < n → ∀ c ∈ (output.drop text.length).head?, c = lineEnd ∨ c = 0) := by
  induction text generalizing output n with
  | nil =>
    cases n with
    | zero => simp [upTo]
    | succ n =>
      cases output with
      | nil => simp [upTo]
      | cons b output =>
        by_cases hend : b = lineEnd
        · simp [upTo, hend]
        · by_cases hzero : b = 0
          · rw [hzero] at hend ⊢
            simp [upTo, hend]
          · simp [upTo, hend, hzero]
  | cons a text ih =>
    rw [List.mem_cons, not_or] at hnul hline
    cases n with
    | zero => simp [upTo]
    | succ n =>
      cases output with
      | nil => simp [upTo]
      | cons b output =>
        by_cases hsame : b = a
        · have hshown : upTo 0 ((upTo lineEnd (b :: output)).take (n + 1)) =
              a :: upTo 0 ((upTo lineEnd output).take n) := by
            rw [hsame]
            simp [upTo, Ne.symm hnul.1, Ne.symm hline.1]
          rw [hshown, List.cons.injEq, eq_self_iff_true, true_and, ih hnul.2 hline.2, hsame]
          simp
        · apply iff_of_false
          · intro h
            apply hsame
            have hprefix : upTo 0 ((upTo lineEnd (b :: output)).take (n + 1)) <+: b :: output :=
              (List.takeWhile_prefix _).trans
                ((List.take_prefix _ _).trans (List.takeWhile_prefix _))
            rw [h, List.cons_prefix_cons] at hprefix
            exact hprefix.1.symm
          · rintro ⟨-, hprefix, -⟩
            exact hsame (List.cons_prefix_cons.mp hprefix).1.symm

-- What `command -v` is documented to do. A path that it has printed names itself.
structure CommandV (sh : Shell) (lookup : CString → Option CString) : Prop where
  prints (name path : CString) : PlainName name.bytes → lookup name = some path →
    sh.run (findCmd name.bytes) = some ⟨path.bytes ++ [lineEnd], some 0⟩
  absolute (name path : CString) : lookup name = some path → path.bytes.head? = some 47 →
    lookup path = some path

namespace Shell

variable (sh : Shell)

-- The answer for the path begins with the path, and its line is no longer if the buffer could hold
-- more of it.
def Repeats (path : CString) : Prop :=
  ∃ ran status, sh.run (findCmd path.bytes) = some ran ∧ ran.status = some status ∧
    wexitstatus status = 0 ∧
    path.bytes <+: ran.output ∧
      (path.bytes.length < 127 → ∀ c ∈ (ran.output.drop path.bytes.length).head?,
        c = lineEnd ∨ c = 0)

variable {sh}

lemma run_findCmd (name : CString) : (cStr (findCmd name.bytes)).bytes = findCmd name.bytes := by
  apply cStr_of_no_nul
  rw [findCmd, List.mem_append, not_or]
  exact ⟨by decide, name.no_nul⟩

lemma locateExe_eq_ok_iff {name : CString} {path : Str} (hne : path ≠ []) :
    sh.locateExe name.bytes = .ok path ↔
      ∃ ran status, sh.run (findCmd name.bytes) = some ran ∧ ran.status = some status ∧
        wexitstatus status = 0 ∧
        readResult ran.output = path := by
  rw [locateExe, run_findCmd]
  cases sh.run (findCmd name.bytes) with
  | none => simp
  | some ran =>
    obtain ⟨output, status⟩ := ran
    cases status with
    | none => simp
    | some status =>
      by_cases hexit : wexitstatus status = 0
      · by_cases hempty : readResult output = []
        · simp [hexit, hempty, hne.symm]
        · simp [hexit, hempty]
      · simp [hexit]

lemma locateExe_prints {lookup : CString → Option CString} (hsh : CommandV sh lookup)
    {name path : CString}
    (hname : PlainName name.bytes) (hpath : lookup name = some path) (hne : path.bytes ≠ []) :
    sh.locateExe name.bytes = .ok path.bytes ↔ path.bytes.length ≤ 127 ∧ lineEnd ∉ path.bytes := by
  rw [locateExe_eq_ok_iff hne, hsh.prints name path hname hpath]
  constructor
  · rintro ⟨ran, status, hran, -, -, hread⟩
    rw [← Option.some.inj hran, readResult_eq] at hread
    have hline : lineEnd ∉ path.bytes := by
      intro hmem
      rw [← hread] at hmem
      exact shown_subset hmem rfl
    exact ⟨((shown_eq_iff path.no_nul hline _ _).mp hread).1, hline⟩
  · rintro ⟨hshort, hline⟩
    refine ⟨_, 0, rfl, rfl, rfl, ?_⟩
    rw [readResult_eq, shown_eq_iff path.no_nul hline]
    refine ⟨hshort, List.prefix_append _ _, ?_⟩
    intro _ c hc
    rw [List.drop_left, List.head?_cons, Option.mem_some_iff] at hc
    exact Or.inl hc.symm

theorem located_exactly_iff {lookup : CString → Option CString} (hsh : CommandV sh lookup)
    {name path : CString}
    (hname : PlainName name.bytes) (hpath : lookup name = some path)
    (hroot : path.bytes.head? = some 47) :
    (sh.locateExe name.bytes = .ok path.bytes ∧ sh.locateExe path.bytes = .ok path.bytes ↔
      path.bytes.length ≤ 127 ∧ lineEnd ∉ path.bytes ∧ sh.Repeats path) ∧
      (PlainName path.bytes → lineEnd ∉ path.bytes ∧ sh.Repeats path) := by
  have hne : path.bytes ≠ [] := by
    intro hnil
    rw [hnil] at hroot
    cases hroot
  constructor
  · rw [locateExe_prints hsh hname hpath hne, and_assoc]
    refine and_congr_right fun hshort => and_congr_right fun hline => ?_
    rw [locateExe_eq_ok_iff hne, Repeats]
    simp only [readResult_eq, shown_eq_iff path.no_nul hline, hshort, true_and]
  · intro hplain
    have hline : lineEnd ∉ path.bytes := by
      intro hmem
      have hspecial := hplain.word.letters lineEnd hmem
      exact absurd hspecial (by decide)
    refine ⟨hline, _, 0, hsh.prints path path hplain (hsh.absolute name path hpath hroot), rfl, rfl,
      List.prefix_append _ _, ?_⟩
    intro _ c hc
    rw [List.drop_left, List.head?_cons, Option.mem_some_iff] at hc
    exact Or.inl hc.symm

def installed (name path : CString) : Shell where
  run line :=
    if line = findCmd name.bytes ∨ line = findCmd path.bytes then
      some ⟨path.bytes ++ [lineEnd], some 0⟩
    else some ⟨[], some (127 * 256)⟩

def installedAt (name path : CString) (wanted : CString) : Option CString :=
  if wanted.bytes = name.bytes ∨ wanted.bytes = path.bytes then some path else none

lemma installed_commandV (name path : CString) :
    CommandV (installed name path) (installedAt name path) := by
  constructor
  · intro wanted found _ hfound
    rw [installedAt, Option.ite_none_right_eq_some] at hfound
    obtain ⟨hwanted, hfound⟩ := hfound
    rw [← Option.some.inj hfound]
    rcases hwanted with hwanted | hwanted
    · exact if_pos (Or.inl (congrArg findCmd hwanted))
    · exact if_pos (Or.inr (congrArg findCmd hwanted))
  · intro wanted found hfound _
    rw [installedAt, Option.ite_none_right_eq_some] at hfound
    rw [← Option.some.inj hfound.2]
    exact if_pos (Or.inr rfl)

lemma plainName_cc : PlainName (lit "cc") :=
  ⟨⟨by decide, by decide, by decide, by decide⟩, by decide⟩

theorem usr_bin_cc_located_exactly :
    (installed (cStr (lit "cc")) (cStr (lit "/usr/bin/cc"))).locateExe (lit "cc") =
      .ok (lit "/usr/bin/cc") ∧
      (installed (cStr (lit "cc")) (cStr (lit "/usr/bin/cc"))).locateExe (lit "/usr/bin/cc") =
        .ok (lit "/usr/bin/cc") := by
  have hplain : PlainName (lit "/usr/bin/cc") :=
    ⟨⟨by decide, by decide, by decide, by decide⟩, by decide⟩
  have hname : PlainName (cStr (lit "cc")).bytes := plainName_cc
  have hpath : installedAt (cStr (lit "cc")) (cStr (lit "/usr/bin/cc")) (cStr (lit "cc")) =
      some (cStr (lit "/usr/bin/cc")) := rfl
  obtain ⟨hexact, hanswer⟩ := located_exactly_iff (installed_commandV _ _) hname hpath rfl
  exact hexact.mpr ⟨by decide, hanswer hplain⟩

def longPath : CString := ⟨47 :: List.replicate 127 97, by simp⟩

theorem long_path_not_located :
    CommandV (installed (cStr (lit "cc")) longPath) (installedAt (cStr (lit "cc")) longPath) ∧
      PlainName (lit "cc") ∧
      installedAt (cStr (lit "cc")) longPath (cStr (lit "cc")) = some longPath ∧
        longPath.bytes.head? = some 47 ∧
      (installed (cStr (lit "cc")) longPath).locateExe (lit "cc") ≠ .ok longPath.bytes := by
  have hcommand := installed_commandV (cStr (lit "cc")) longPath
  have hlookup : installedAt (cStr (lit "cc")) longPath (cStr (lit "cc")) = some longPath :=
    if_pos (Or.inl rfl)
  refine ⟨hcommand, plainName_cc, hlookup, rfl, ?_⟩
  intro hlocated
  have hshort := (locateExe_prints hcommand plainName_cc hlookup (List.cons_ne_nil _ _)).mp hlocated
  have hlength : longPath.bytes.length = 128 := by
    rw [longPath, List.length_cons, List.length_replicate]
  omega

end Shell

end Catter.Proxy
