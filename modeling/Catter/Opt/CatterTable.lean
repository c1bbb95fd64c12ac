import Catter.Opt.ExactTable

/-! The option table of catter, and what it reports of a whole command line. -/

namespace Catter.Opt

open Text

def Info.aliasOf (originId : ℕ) (i : Info) : Info := { i with aliasId := originId }

def optHelp : ℕ := 3

def optHelpShort : ℕ := 4

def optScript : ℕ := 5

def helpInfo : Info := .unaliasedOne [dashDash] (lit "--help") optHelp .flag 0

def helpShortInfo : Info :=
  (Info.unaliasedOne [dash] (lit "-h") optHelpShort .flag 0).aliasOf optHelp

def scriptInfo : Info := .unaliasedOne [dash] (lit "-s") optScript .separate 1

def catterOptTable : ExactTable where
  optionInfos := [.input optInput, .unknown optUnknown, helpInfo, helpShortInfo, scriptInfo]
  dashDashParsing := true
  dashDashAsSinglePack := true

def catterProxyExactTable : ExactTable where
  toOptTable := catterProxyOptTable

def allVisible : ℕ := 2 ^ 32 - 1

def missingReport (str : Str) : Except Str ParsedArgument :=
  .error (str ++ lit ": missing argument")

def reports (argv : List Str) (r : ParseResult) : List (Except Str ParsedArgument) :=
  r.args.map .ok ++ if r.missingArgCount = 0 then []
    else [missingReport (argv.getD r.missingArgIndex [])]

-- The overload of `parse_args` with one callback.
def parseArgsReporting (t : ExactTable) (argv : List Str) :
    Except Failure (List (Except Str ParsedArgument)) :=
  (parseArgs t.toOptTable allVisible argv).map (reports argv)

def catterReports (index : ℕ) : List Str → List (Except Str ParsedArgument)
  | [] => []
  | str :: behind =>
    if str = [] then catterReports (index + 1) behind
    else if str = dashDash then [.ok ⟨optInput, str, behind, index, none, none⟩]
    else if str = lit "--help" then .ok ⟨optHelp, str, [], index, none, none⟩ ::
      catterReports (index + 1) behind
    else if str = lit "-h" then
      .ok ⟨optHelpShort, str, [], index, some optHelp, none⟩ :: catterReports (index + 1) behind
    else if str = lit "-s" then
      match behind with
      | [] => [.error (lit "-s: missing argument")]
      | value :: following =>
        if value = [] then [.error (lit "-s: missing argument")]
        else .ok ⟨optScript, str, [value], index, none, none⟩ :: catterReports (index + 2) following
    else if str = dash ∨ str.head? ≠ some dashChar then
      .ok ⟨optInput, str, [], index, none, none⟩ :: catterReports (index + 1) behind
    else .ok ⟨optUnknown, str, [], index, none, none⟩ :: catterReports (index + 1) behind

/-! What a word is to the table. -/

lemma isInput_dashes {t : OptTable} (hdash : dash ∈ t.prefixesUnion)
    (hunion : ∀ pfx ∈ t.prefixesUnion, pfx.head? = some dashChar) {str : Str} :
    isInput t str = true ↔ str = dash ∨ str.head? ≠ some dashChar := by
  have hany : (t.prefixesUnion.any fun pfx => pfx.isPrefixOf str) = true ↔
      str.head? = some dashChar := by
    rw [List.any_eq_true]
    constructor
    · rintro ⟨pfx, hpfx, hbefore⟩
      obtain ⟨rest, rfl⟩ := List.head?_eq_some_iff.mp (hunion pfx hpfx)
      obtain ⟨behind, rfl⟩ := List.isPrefixOf_iff_prefix.mp hbefore
      rfl
    · intro hhead
      obtain ⟨rest, rfl⟩ := List.head?_eq_some_iff.mp hhead
      exact ⟨dash, hdash, List.isPrefixOf_iff_prefix.mpr ⟨rest, rfl⟩⟩
  rw [isInput, Bool.or_eq_true, decide_eq_true_iff, Bool.not_eq_true', ← Bool.not_eq_true, hany]

lemma isInput_catterOptTable {str : Str} :
    isInput catterOptTable.toOptTable str = true ↔ str = dash ∨ str.head? ≠ some dashChar :=
  isInput_dashes (by decide) (by decide)

lemma wordId_catterOptTable (str : Str) :
    catterOptTable.wordId str = if str = dash ∨ str.head? ≠ some dashChar then optInput
      else optUnknown := by
  rw [ExactTable.wordId]
  by_cases hin : str = dash ∨ str.head? ≠ some dashChar
  · rw [if_pos (isInput_catterOptTable.mpr hin), if_pos hin]
    rfl
  · rw [if_neg (mt isInput_catterOptTable.mp hin), if_neg hin]
    obtain ⟨rest, rfl⟩ := List.head?_eq_some_iff.mp (not_not.mp (not_or.mp hin).2)
    rfl

lemma spelled_catterOptTable {i : Info} {str : Str} (hi : i ∈ catterOptTable.searchable)
    (h : str ∈ i.spellings) :
    str = lit "--help" ∨ str = lit "-h" ∨ str = lit "-s" := by
  have hsearchable : catterOptTable.searchable = [helpInfo, helpShortInfo, scriptInfo] := by decide
  rw [hsearchable, List.mem_cons, List.mem_cons, List.mem_singleton] at hi
  rcases hi with rfl | rfl | rfl
  · exact Or.inl (List.mem_singleton.mp h)
  · exact Or.inr (Or.inl (List.mem_singleton.mp h))
  · exact Or.inr (Or.inr (List.mem_singleton.mp h))

lemma optionFor_catterOptTable (str : Str) :
    catterOptTable.optionFor (hiddenFrom allVisible) str =
      if str = lit "--help" then some helpInfo
      else if str = lit "-h" then some helpShortInfo
      else if str = lit "-s" then some scriptInfo
      else none := by
  by_cases hspelled : str = lit "--help" ∨ str = lit "-h" ∨ str = lit "-s"
  · rcases hspelled with rfl | rfl | rfl <;> decide
  · simp only [not_or] at hspelled
    rw [if_neg hspelled.1, if_neg hspelled.2.1, if_neg hspelled.2.2,
      Option.eq_none_iff_forall_ne_some]
    intro i hoption
    obtain ⟨-, hi, hmem⟩ := optionFor_mem hoption
    rcases spelled_catterOptTable hi hmem with h | h | h
    · exact hspelled.1 h
    · exact hspelled.2.1 h
    · exact hspelled.2.2 h

/-! The reports of a line that is understood. -/

lemma reports_emit (argv : List Str) (a : ParsedArgument) (r : ParseResult) :
    reports argv (r.emit a) = .ok a :: reports argv r := rfl

lemma reports_missing {argv behind : List Str} {index : ℕ} {str : Str}
    (hat : argv.drop index = str :: behind) :
    reports argv ⟨[], index, 1⟩ = [missingReport str] := by
  have hlt : index < argv.length := by
    by_contra hend
    rw [List.drop_eq_nil_of_le (not_lt.mp hend)] at hat
    cases hat
  rw [drop_eq_getD_cons hlt] at hat
  rw [reports, (List.cons.inj hat).1]
  rfl

lemma drop_succ_of_drop {argv behind : List Str} {index : ℕ} {str : Str}
    (hat : argv.drop index = str :: behind) :
    argv.drop (index + 1) = behind := by
  rw [← List.tail_drop, hat, List.tail_cons]

lemma option_cases {i : Info} {str : Str}
    (h : catterOptTable.optionFor (hiddenFrom allVisible) str = some i) :
    (str = lit "--help" ∧ i = helpInfo) ∨ (str = lit "-h" ∧ i = helpShortInfo) ∨
      (str = lit "-s" ∧ i = scriptInfo) := by
  rw [optionFor_catterOptTable] at h
  split_ifs at h with hhelp hshort hscript
  · exact Or.inl ⟨hhelp, (Option.some.inj h).symm⟩
  · exact Or.inr (Or.inl ⟨hshort, (Option.some.inj h).symm⟩)
  · exact Or.inr (Or.inr ⟨hscript, (Option.some.inj h).symm⟩)

lemma reports_line (argv : List Str) {line : Line}
    (h : line.Understood catterOptTable (hiddenFrom allVisible))
    {index : ℕ} (hat : argv.drop index = line.words) :
    reports argv (line.result catterOptTable index) = catterReports index line.words := by
  induction line generalizing index with
  | finished =>
    rw [Line.words, catterReports, Line.result]
    rfl
  | stopped passed =>
    rw [Line.words, catterReports.eq_def, Line.result]
    rfl
  | missing i str behind =>
    obtain ⟨hs, hne, hoption, hkind, hbehind⟩ := h
    rw [Line.words] at hat
    rw [Line.words, Line.result, reports_missing hat]
    rcases option_cases hoption with ⟨rfl, rfl⟩ | ⟨rfl, rfl⟩ | ⟨rfl, rfl⟩
    · cases hkind
    · cases hkind
    · rw [catterReports.eq_def]
      cases behind with
      | nil => rfl
      | cons value following =>
        obtain rfl : value = [] := hbehind
        rfl
  | blank following ih =>
    rw [Line.words] at hat
    rw [Line.words, catterReports.eq_def, Line.result, ih h (drop_succ_of_drop hat)]
    rfl
  | word str following ih =>
    obtain ⟨hs, hne, hword, hfollowing⟩ := h
    rw [Line.words] at hat
    rw [Line.words, Line.result, reports_emit, ih hfollowing (drop_succ_of_drop hat),
      wordId_catterOptTable,
      catterReports.eq_def index (str :: following.words)]
    rw [optionFor_catterOptTable] at hword
    split_ifs at hword with hhelp hshort hscript
    simp only [if_neg hs, if_neg hne, if_neg hhelp, if_neg hshort, if_neg hscript]
    split_ifs <;> rfl
  | flag i str following ih =>
    obtain ⟨hs, hne, hoption, hkind, hfollowing⟩ := h
    rw [Line.words] at hat
    rw [Line.words, Line.result, reports_emit, ih hfollowing (drop_succ_of_drop hat),
      catterReports.eq_def index (str :: following.words)]
    rcases option_cases hoption with ⟨rfl, rfl⟩ | ⟨rfl, rfl⟩ | ⟨rfl, rfl⟩
    · rfl
    · rfl
    · cases hkind
  | valued i str value following ih =>
    obtain ⟨hs, hne, hoption, hkind, hvalue, hfollowing⟩ := h
    rw [Line.words] at hat
    rw [Line.words, Line.result, reports_emit,
      ih hfollowing (drop_succ_of_drop (drop_succ_of_drop hat)),
      catterReports.eq_def index (str :: value :: following.words)]
    rcases option_cases hoption with ⟨rfl, rfl⟩ | ⟨rfl, rfl⟩ | ⟨rfl, rfl⟩
    · cases hkind
    · cases hkind
    · simp only [if_neg hvalue]
      rfl

/-- Every command line of catter is reported word for word as its options are declared. -/
theorem catter_reports (argv : List Str) :
    parseArgsReporting catterOptTable argv = .ok (catterReports 0 argv) := by
  obtain ⟨hunderstood, hwords⟩ := understood_readLine catterOptTable (hiddenFrom allVisible) argv
  have hparsed := parseFrom_words catterOptTable (hiddenFrom allVisible) hunderstood 0
  have hreports := reports_line argv hunderstood (by rw [List.drop_zero, hwords])
  rw [hwords] at hparsed hreports
  rw [parseArgsReporting, parseArgs, internalParseArgs_eq _ _ catterOptTable.ungrouped, hparsed,
    Except.map, hreports]

example : parseArgsReporting catterOptTable [lit "-p", lit "12", lit "-s", lit "s", lit "--",
    lit "cc", lit "-h"] =
    .ok [.ok ⟨2, lit "-p", [], 0, none, none⟩, .ok ⟨1, lit "12", [], 1, none, none⟩,
      .ok ⟨5, lit "-s", [lit "s"], 2, none, none⟩,
        .ok ⟨1, lit "--", [lit "cc", lit "-h"], 4, none, none⟩] := by
  decide

end Catter.Opt
