import Catter.Opt.ProxyTable

/-! Tables of flags and of options with one value behind them, as the two of catter are: a
command line can be read in one way only, and the parser reads it so. -/

namespace Catter.Opt

open Text

def Info.spellings (i : Info) : List Str := i.prefixes.map (· ++ i.name)

-- An alias also names the option that it stands for, and a flag the values it adds to it.
def Info.emitted (i : Info) (str : Str) (values : List Str) (index : ℕ) : ParsedArgument :=
  ⟨i.id, str, values, index, if i.aliasId = 0 then none else some i.aliasId,
    if i.aliasId = 0 ∨ i.kind ≠ .flag then none else i.aliasArgs⟩

structure ExactTable extends OptTable where
  ungrouped : groupedShortOptions = false := by decide
  dashed : dashDashParsing = true := by decide
  cased : ignoreCase = false := by decide
  unsorted : tablegenMode = false := by decide
  kinds : ∀ i ∈ toOptTable.searchable, i.kind = .flag ∨ i.kind = .separate := by decide
  unjoined : ∀ i ∈ optionInfos, i.kind ≠ .joined := by decide
  apart : ∀ i ∈ toOptTable.searchable, ∀ str ∈ i.spellings, ∀ str' ∈ i.spellings, str <+: str' →
    str = str' := by
    decide
  numbered : optionInfos.map Info.id = List.range' 1 optionInfos.length := by decide

namespace ExactTable

variable (t : ExactTable) (excludeOption : Info → Bool)

def optionFor (str : Str) : Option Info :=
  if isInput t.toOptTable str then none
  else t.searchable.find? fun i => !excludeOption i && i.spellings.contains str

def wordId (str : Str) : ℕ := if isInput t.toOptTable str then t.inputOptionId
    else untaken t.toOptTable str

end ExactTable

/-! The option that takes a word is the one that it spells. -/

section Spelled

variable {t : ExactTable} {excludeOption : Info → Bool} {i : Info} {str : Str}

lemma declines_exact (hkind : i.kind = .flag ∨ i.kind = .separate) (size argSize : ℕ) :
    i.declines size argSize = decide (size ≠ argSize) := by
  rcases hkind with hkind | hkind
  · simp [Info.declines, hkind]
  · simp [Info.declines, hkind]

lemma matchOpt_spelled (hi : i ∈ t.searchable) (hspelled : str ∈ i.spellings) :
    matchOpt i str false = str.length := by
  obtain ⟨pfx, hpfx, rfl⟩ := List.mem_map.mp hspelled
  cases hfind : i.prefixes.find? (matchesWith i false (pfx ++ i.name)) with
  | none =>
    have hnot := List.find?_eq_none.mp hfind pfx hpfx
    simp [matchesWith, nameMatches] at hnot
  | some pfx' =>
    have hmatches := List.find?_some hfind
    simp only [matchesWith, nameMatches, Bool.false_eq_true, if_false, Bool.and_eq_true,
      List.isPrefixOf_iff_prefix] at hmatches
    obtain ⟨⟨rest, hrest⟩, hname⟩ := hmatches
    rw [← hrest, List.drop_left] at hname
    have hmem : pfx' ++ i.name ∈ i.spellings :=
      List.mem_map_of_mem (List.mem_of_find?_eq_some hfind)
    have hbefore : pfx' ++ i.name <+: pfx ++ i.name := by
      rw [← hrest]
      exact (List.prefix_append_right_inj pfx').mpr hname
    rw [matchOpt_eq_of_find hfind, ← t.apart i hi _ hmem _ hspelled hbefore, List.length_append]

lemma candidate_exact (hi : i ∈ t.searchable) (hs : str ≠ []) :
    t.candidate excludeOption str i =
      if !excludeOption i && i.spellings.contains str then some (i, str.length) else none := by
  have hlength : str.length ≠ 0 := mt List.length_eq_zero_iff.mp hs
  rw [OptTable.candidate, t.cased, declines_exact (t.kinds i hi)]
  by_cases hspelled : str ∈ i.spellings
  · cases hex : excludeOption i <;> simp [matchOpt_spelled hi hspelled, hlength, hspelled]
  · have hshort : matchOpt i str false = 0 ∨ matchOpt i str false ≠ str.length := by
      by_contra hnot
      obtain ⟨hmatched, hlen⟩ := not_or.mp hnot
      obtain ⟨pfx, hpfx, rfl⟩ := eq_of_matchOpt_length hmatched (not_not.mp hlen)
      exact hspelled (List.mem_map_of_mem hpfx)
    rw [if_pos]
    · simp [hspelled]
    · rcases hshort with hzero | hne
      · exact Or.inl hzero
      · exact Or.inr (Or.inr (decide_eq_true hne))

lemma findSome_candidate (hs : str ≠ []) {is : List Info} (his : is ⊆ t.searchable) :
    is.findSome? (t.candidate excludeOption str) =
      (is.find? fun i => !excludeOption i && i.spellings.contains str).map fun i =>
        (i, str.length) := by
  induction is with
  | nil => rfl
  | cons i is ih =>
    obtain ⟨hi, his⟩ := List.cons_subset.mp his
    rw [List.findSome?_cons, candidate_exact hi hs, List.find?_cons, ih his]
    cases !excludeOption i && i.spellings.contains str with
    | true => rfl
    | false => rfl

lemma searchFrom_exact : t.searchFrom str = t.searchable := by
  rw [OptTable.searchFrom, t.unsorted]
  rfl

lemma optionFor_mem (h : t.optionFor excludeOption str = some i) :
    isInput t.toOptTable str = false ∧ i ∈ t.searchable ∧ str ∈ i.spellings := by
  rw [ExactTable.optionFor] at h
  split_ifs at h with hin
  have hspelled := List.find?_some h
  simp only [Bool.and_eq_true, List.contains_iff_mem] at hspelled
  exact ⟨Bool.eq_false_iff.mpr hin, List.mem_of_find?_eq_some h, hspelled.2⟩

/-! What it emits. -/

lemma getElem_of_id {k : ℕ} (hk : k < t.optionInfos.length) : t.optionInfos[k].id = k + 1 := by
  have hid : (t.optionInfos.map Info.id)[k]? = some (1 + k) := by
    rw [t.numbered, List.getElem?_range' hk, Nat.one_mul]
  rw [List.getElem?_map, List.getElem?_eq_getElem hk, Option.map_some, Option.some_inj] at hid
  rw [hid, Nat.add_comm]

lemma option_of_alias (hi : i ∈ t.optionInfos) (halias : i.aliasId ≠ 0) :
    ∃ als ∈ t.optionInfos, t.option i.aliasId = some als ∧ als.id = i.aliasId ∧
      i.id ≠ i.aliasId := by
  obtain ⟨als, hals, hlast⟩ := (Option.any_eq_true _ _).mp ((t.alias_ok i hi).resolve_left halias)
  obtain ⟨hk, rfl⟩ := List.getElem?_eq_some_iff.mp hals
  obtain ⟨j, hj, rfl⟩ := List.mem_iff_getElem.mp hi
  have hid : t.optionInfos[t.optionInfos[j].aliasId - 1].id = t.optionInfos[j].aliasId := by
    rw [getElem_of_id hk]
    omega
  refine ⟨_, List.getElem_mem hk, ?_, hid, ?_⟩
  · rw [OptTable.option, if_neg halias, hals]
  · intro hsame
    rw [getElem_of_id hj] at hsame
    have hposition : t.optionInfos[j].aliasId - 1 = j := by omega
    have hself : t.optionInfos[t.optionInfos[j].aliasId - 1] = t.optionInfos[j] := by
      simp only [hposition]
    rw [hself] at hlast
    exact halias (by simpa using hlast)

lemma found_exact (hi : i ∈ t.optionInfos) (values : List Str) (index : ℕ) :
    found t.toOptTable i str values index = i.emitted str values index := by
  rw [found, Info.emitted]
  by_cases halias : i.aliasId = 0
  · simp [unalias, OptTable.unaliasedOption, OptTable.option, halias]
  · obtain ⟨als, hmem, hoption, hid, hne⟩ := option_of_alias hi halias
    have hunaliased : t.unaliasedOption i = als := by
      rw [OptTable.unaliasedOption, hoption]
      rfl
    have hjoined : (t.option i.aliasId).map Info.kind ≠ some .joined := by
      rw [hoption]
      simpa using t.unjoined als hmem
    simp only [unalias, hunaliased, hid, hne, hjoined, halias, if_false, false_or]
    by_cases hflag : i.kind = .flag
    · cases i.aliasArgs <;> simp [hflag]
    · simp [hflag]

/-! One step. -/

lemma takeOne_word (hs : str ≠ []) (hword : t.optionFor excludeOption str = none) (index : ℕ)
    (following : List Str) :
    takeOne t.toOptTable excludeOption index str following =
      (some (plain (t.wordId str) str index), 1) := by
  rw [takeOne, ExactTable.wordId]
  by_cases hin : isInput t.toOptTable str = true
  · rw [if_pos hin, if_pos hin]
  · rw [ExactTable.optionFor, if_neg hin] at hword
    rw [if_neg hin, if_neg hin, OptTable.taking, searchFrom_exact,
      findSome_candidate hs (List.Subset.refl _), hword]
    rfl

lemma takeOne_option (hs : str ≠ []) (hoption : t.optionFor excludeOption str = some i) (index : ℕ)
    (following : List Str) :
    takeOne t.toOptTable excludeOption index str following =
      takeWith t.toOptTable index str following (i, str.length) := by
  obtain ⟨hin, -, -⟩ := optionFor_mem hoption
  rw [ExactTable.optionFor, if_neg (Bool.eq_false_iff.mp hin)] at hoption
  rw [takeOne, if_neg (Bool.eq_false_iff.mp hin), OptTable.taking, searchFrom_exact,
    findSome_candidate hs (List.Subset.refl _), hoption]
  rfl

lemma takeOne_flag (hs : str ≠ []) (hoption : t.optionFor excludeOption str = some i)
    (hflag : i.kind = .flag)
    (index : ℕ) (following : List Str) :
    takeOne t.toOptTable excludeOption index str following =
      (some (i.emitted str [] index), 1) := by
  have hi := searchable_subset t.toOptTable (optionFor_mem hoption).2.1
  rw [takeOne_option hs hoption, takeWith]
  simp [consume, hflag, found_exact hi]

lemma takeOne_valued (hs : str ≠ []) (hoption : t.optionFor excludeOption str = some i)
    (hseparate : i.kind = .separate) {value : Str} (hvalue : value ≠ []) (index : ℕ)
    (following : List Str) :
    takeOne t.toOptTable excludeOption index str (value :: following) =
      (some (i.emitted str [value] index), 2) := by
  have hi := searchable_subset t.toOptTable (optionFor_mem hoption).2.1
  rw [takeOne_option hs hoption, takeWith]
  simp [consume, hseparate, hvalue, found_exact hi]

lemma takeOne_missing (hs : str ≠ []) (hoption : t.optionFor excludeOption str = some i)
    (hseparate : i.kind = .separate) (index : ℕ) {behind : List Str}
    (hbehind : behind.headD [] = []) :
    takeOne t.toOptTable excludeOption index str behind = (none, 2) := by
  rw [takeOne_option hs hoption, takeWith]
  simp only [consume, hseparate, hbehind, ne_eq, not_true, if_false, if_true, Option.map_none]

end Spelled

inductive Line
  | finished
  | stopped (passed : List Str)
  | missing (i : Info) (str : Str) (behind : List Str)
  | blank (following : Line)
  | word (str : Str) (following : Line)
  | flag (i : Info) (str : Str) (following : Line)
  | valued (i : Info) (str value : Str) (following : Line)
deriving DecidableEq

namespace Line

def words : Line → List Str
  | finished => []
  | stopped passed => dashDash :: passed
  | missing _ str behind => str :: behind
  | blank following => [] :: following.words
  | word str following => str :: following.words
  | flag _ str following => str :: following.words
  | valued _ str value following => str :: value :: following.words

def Understood (t : ExactTable) (excludeOption : Info → Bool) : Line → Prop
  | finished => True
  | stopped _ => True
  | missing i str behind => str ≠ [] ∧ str ≠ dashDash ∧ t.optionFor excludeOption str = some i ∧
      i.kind = .separate ∧ behind.headD [] = []
  | blank following => following.Understood t excludeOption
  | word str following => str ≠ [] ∧ str ≠ dashDash ∧ t.optionFor excludeOption str = none ∧
      following.Understood t excludeOption
  | flag i str following => str ≠ [] ∧ str ≠ dashDash ∧ t.optionFor excludeOption str = some i ∧
      i.kind = .flag ∧ following.Understood t excludeOption
  | valued i str value following => str ≠ [] ∧ str ≠ dashDash ∧
    t.optionFor excludeOption str = some i ∧
      i.kind = .separate ∧ value ≠ [] ∧ following.Understood t excludeOption

def result (t : ExactTable) : ℕ → Line → ParseResult
  | _, finished => {}
  | index, stopped passed => { args := dashDashArgs t.toOptTable index passed }
  | index, missing _ _ _ => ⟨[], index, 1⟩
  | index, blank following => result t (index + 1) following
  | index, word str following =>
    (result t (index + 1) following).emit (plain (t.wordId str) str index)
  | index, flag i str following => (result t (index + 1) following).emit (i.emitted str [] index)
  | index, valued i str value following =>
    (result t (index + 2) following).emit (i.emitted str [value] index)

end Line

/-! Every line is read, and as it is understood. -/

section Reading

variable (t : ExactTable) (excludeOption : Info → Bool)

lemma parseFrom_words {line : Line} (h : line.Understood t excludeOption) (index : ℕ) :
    parseFrom t.toOptTable excludeOption index line.words = line.result t index := by
  have hstop {str : Str} (hne : str ≠ dashDash) : ¬ (t.dashDashParsing = true ∧ str = dashDash) :=
    fun hd => hne hd.2
  induction line generalizing index with
  | finished => rw [Line.words, parseFrom, Line.result]
  | stopped passed => rw [Line.words, parseFrom_stop t.toOptTable t.dashed, Line.result]
  | missing i str behind =>
    obtain ⟨hs, hne, hoption, hkind, hbehind⟩ := h
    rw [Line.words, parseFrom_missing t.toOptTable hs (hstop hne)
      (takeOne_missing hs hoption hkind index hbehind),
      Line.result]
  | blank following ih =>
    rw [Line.words, parseFrom, if_pos rfl, ih h, Line.result]
  | word str following ih =>
    obtain ⟨hs, hne, hword, hfollowing⟩ := h
    rw [Line.words, parseFrom_emit t.toOptTable hs (hstop hne) (takeOne_word hs hword index _),
      Line.result,
      ← ih hfollowing]
    rfl
  | flag i str following ih =>
    obtain ⟨hs, hne, hoption, hkind, hfollowing⟩ := h
    rw [Line.words, parseFrom_emit t.toOptTable hs (hstop hne)
      (takeOne_flag hs hoption hkind index _), Line.result,
      ← ih hfollowing]
    rfl
  | valued i str value following ih =>
    obtain ⟨hs, hne, hoption, hkind, hvalue, hfollowing⟩ := h
    rw [Line.words, parseFrom_emit t.toOptTable hs (hstop hne)
      (takeOne_valued hs hoption hkind hvalue index _),
      Line.result, ← ih hfollowing]
    rfl

def readLine : List Str → Line
  | [] => .finished
  | str :: behind =>
    if str = [] then .blank (readLine behind)
    else if str = dashDash then .stopped behind
    else match t.optionFor excludeOption str with
      | none => .word str (readLine behind)
      | some i =>
        if i.kind = .flag then .flag i str (readLine behind)
        else match behind with
          | [] => .missing i str []
          | value :: following =>
            if value = [] then .missing i str (value :: following)
              else .valued i str value (readLine following)

lemma readLine_words {line : Line} (h : line.Understood t excludeOption) :
    readLine t excludeOption line.words = line := by
  have hvalued {i : Info} (hkind : i.kind = .separate) : i.kind ≠ .flag := by
    rw [hkind]
    decide
  induction line with
  | finished => rw [Line.words, readLine]
  | stopped passed => rw [Line.words, readLine, if_neg (by decide), if_pos rfl]
  | missing i str behind =>
    obtain ⟨hs, hne, hoption, hkind, hbehind⟩ := h
    rw [Line.words, readLine.eq_def]
    simp only [if_neg hs, if_neg hne, hoption, if_neg (hvalued hkind)]
    cases behind with
    | nil => rfl
    | cons value following => exact if_pos hbehind
  | blank following ih => rw [Line.words, readLine, if_pos rfl, ih h]
  | word str following ih =>
    obtain ⟨hs, hne, hword, hfollowing⟩ := h
    rw [Line.words, readLine.eq_def]
    simp only [if_neg hs, if_neg hne, hword, ih hfollowing]
  | flag i str following ih =>
    obtain ⟨hs, hne, hoption, hkind, hfollowing⟩ := h
    rw [Line.words, readLine.eq_def]
    simp only [if_neg hs, if_neg hne, hoption, if_pos hkind, ih hfollowing]
  | valued i str value following ih =>
    obtain ⟨hs, hne, hoption, hkind, hvalue, hfollowing⟩ := h
    rw [Line.words, readLine.eq_def]
    simp only [if_neg hs, if_neg hne, hoption, if_neg (hvalued hkind), if_neg hvalue, ih hfollowing]

lemma understood_readLine (argv : List Str) :
    (readLine t excludeOption argv).Understood t excludeOption ∧
      (readLine t excludeOption argv).words = argv := by
  have hseparate {str : Str} {i : Info} (hoption : t.optionFor excludeOption str = some i)
      (hkind : i.kind ≠ .flag) :
      i.kind = .separate := (t.kinds i (optionFor_mem hoption).2.1).resolve_left hkind
  induction argv using readLine.induct t excludeOption with
  | case1 => exact ⟨trivial, rfl⟩
  | case2 behind ih =>
    rw [readLine, if_pos rfl]
    exact ⟨ih.1, congrArg _ ih.2⟩
  | case3 behind hs =>
    rw [readLine, if_neg hs, if_pos rfl]
    exact ⟨trivial, rfl⟩
  | case4 str behind hs hne hword ih =>
    rw [readLine.eq_def]
    simp only [if_neg hs, if_neg hne, hword]
    exact ⟨⟨hs, hne, hword, ih.1⟩, congrArg _ ih.2⟩
  | case5 str behind hs hne i hoption hflag ih =>
    rw [readLine.eq_def]
    simp only [if_neg hs, if_neg hne, hoption, if_pos hflag]
    exact ⟨⟨hs, hne, hoption, hflag, ih.1⟩, congrArg _ ih.2⟩
  | case6 str hs hne i hoption hkind =>
    rw [readLine.eq_def]
    simp only [if_neg hs, if_neg hne, hoption, if_neg hkind]
    exact ⟨⟨hs, hne, hoption, hseparate hoption hkind, rfl⟩, rfl⟩
  | case7 str hs hne i hoption hkind following =>
    rw [readLine.eq_def]
    simp only [if_neg hs, if_neg hne, hoption, if_neg hkind]
    exact ⟨⟨hs, hne, hoption, hseparate hoption hkind, rfl⟩, rfl⟩
  | case8 str hs hne i hoption hkind value following hvalue ih =>
    rw [readLine.eq_def]
    simp only [if_neg hs, if_neg hne, hoption, if_neg hkind, if_neg hvalue]
    exact ⟨⟨hs, hne, hoption, hseparate hoption hkind, hvalue, ih.1⟩, congrArg _ (congrArg _ ih.2)⟩

/-- A command line is the words of one understood line only, and the parser emits what that line
means. -/
theorem command_line_read (argv : List Str) :
    ∃ line : Line, (∀ other : Line, other.Understood t excludeOption ∧ other.words = argv ↔
      other = line) ∧
      internalParseArgs t.toOptTable excludeOption argv = .ok (line.result t 0) := by
  obtain ⟨hunderstood, hwords⟩ := understood_readLine t excludeOption argv
  refine ⟨readLine t excludeOption argv, ?_, ?_⟩
  · intro other
    constructor
    · rintro ⟨hother, rfl⟩
      exact (readLine_words t excludeOption hother).symm
    · rintro rfl
      exact ⟨hunderstood, hwords⟩
  · have hparsed := parseFrom_words t excludeOption hunderstood 0
    rw [hwords] at hparsed
    rw [internalParseArgs_eq t.toOptTable excludeOption t.ungrouped, hparsed]

end Reading

end Catter.Opt
