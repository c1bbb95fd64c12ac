import Catter.Opt.NameOrder
import Catter.Opt.Parse

/-! Options that the exclude predicate hides: parsing goes as with a table that does not
have them. -/

namespace Catter.Opt

open Text Library.PartitionPoint

-- The other entries are never taken, whatever they match.
def Info.isOption (i : Info) : Bool :=
  match i.kind with
  | .group | .input | .unknown | .values => false
  | _ => true

structure Removes (t : OptTable) (excludeOption : Info → Bool) (t' : OptTable) : Prop where
  options : t'.searchable.filter Info.isOption =
    t.searchable.filter fun i => i.isOption && !excludeOption i
  union : t'.prefixesUnion = t.prefixesUnion
  input : t'.inputOptionId = t.inputOptionId
  unknown : t'.unknownOptionId = t.unknownOptionId
  case : t'.ignoreCase = t.ignoreCase
  grouped : t'.groupedShortOptions = t.groupedShortOptions
  parsing : t'.dashDashParsing = t.dashDashParsing
  single_pack : t'.dashDashAsSinglePack = t.dashDashAsSinglePack
  mode : t'.tablegenMode = t.tablegenMode

-- Aliases are looked up by position in the table, so what `unalias` adds is not compared.
def ParsedArgument.emitted (a : ParsedArgument) : ℕ × Str × List Str × ℕ :=
  (a.optionId, a.spelling, a.values, a.index)

def Info.withdrawn (excludeOption : Info → Bool) (i : Info) : Info :=
  if i.isOption && excludeOption i then { i with kind := .values } else i

section Withdrawn

variable (excludeOption : Info → Bool) (i : Info)

@[simp] lemma withdrawn_prefixes : (i.withdrawn excludeOption).prefixes = i.prefixes := by
  rw [Info.withdrawn]
  split_ifs <;> rfl

@[simp] lemma withdrawn_name : (i.withdrawn excludeOption).name = i.name := by
  rw [Info.withdrawn]
  split_ifs <;> rfl

@[simp] lemma withdrawn_id : (i.withdrawn excludeOption).id = i.id := by
  rw [Info.withdrawn]
  split_ifs <;> rfl

@[simp] lemma withdrawn_aliasId : (i.withdrawn excludeOption).aliasId = i.aliasId := by
  rw [Info.withdrawn]
  split_ifs <;> rfl

lemma withdrawn_isOption : (i.withdrawn excludeOption).isOption =
    (i.isOption && !excludeOption i) := by
  rw [Info.withdrawn]
  cases hoption : i.isOption with
  | false => simp [hoption]
  | true =>
    cases hex : excludeOption i with
    | false => simp [hoption]
    | true => rfl

lemma withdrawn_of_shown (h : ¬(i.isOption && excludeOption i) = true) :
    i.withdrawn excludeOption = i := if_neg h

end Withdrawn

lemma findSpecial_withdrawn (excludeOption : Info → Bool) (special : SpecialOptions) (pos : ℕ)
    (is : List Info) :
    findSpecial special pos (is.map (Info.withdrawn excludeOption)) =
      findSpecial special pos is := by
  induction is generalizing special pos with
  | nil => rfl
  | cons i is ih =>
    rw [List.map_cons, findSpecial, findSpecial, ih, ih, ih, withdrawn_id]
    by_cases h : (i.isOption && excludeOption i) = true
    · have hkind : (i.withdrawn excludeOption).kind = .values := by rw [Info.withdrawn, if_pos h]
      obtain ⟨hoption, -⟩ := (Bool.and_eq_true _ _).mp h
      rw [hkind]
      cases hk : i.kind with
      | group | input | unknown => simp [Info.isOption, hk] at hoption
      | _ => rfl
    · rw [withdrawn_of_shown excludeOption i h]

/-- The excluded options keep their place and their prefixes, and are no options any more. -/
def OptTable.without (t : OptTable) (excludeOption : Info → Bool) : OptTable :=
  { t with
    optionInfos := t.optionInfos.map (Info.withdrawn excludeOption)
    alias_ok := by
      intro j hj
      obtain ⟨i, hi, rfl⟩ := List.mem_map.mp hj
      rw [withdrawn_aliasId, List.getElem?_map, Option.any_map]
      have := t.alias_ok i hi
      simpa [Function.comp_def] using this }

lemma without_searchable (t : OptTable) (excludeOption : Info → Bool) :
    (t.without excludeOption).searchable = t.searchable.map (Info.withdrawn excludeOption) := by
  simp [OptTable.searchable, OptTable.special, OptTable.without, findSpecial_withdrawn,
    List.map_drop]

lemma removes_without (t : OptTable) (excludeOption : Info → Bool) :
    Removes t excludeOption (t.without excludeOption) where
  options := by
    rw [without_searchable]
    induction t.searchable with
    | nil => rfl
    | cons i is ih =>
      rw [List.map_cons, List.filter_cons, List.filter_cons, ih, withdrawn_isOption]
      split_ifs with h
      · rw [withdrawn_of_shown excludeOption i (by simp_all)]
      · rfl
  union := by
    rw [OptTable.prefixesUnion, OptTable.prefixesUnion, without_searchable, List.flatMap_map]
    simp [OptTable.without]
  input := by
    simp [OptTable.inputOptionId, OptTable.special, OptTable.without, findSpecial_withdrawn]
  unknown := by
    simp [OptTable.unknownOptionId, OptTable.special, OptTable.without, findSpecial_withdrawn]
  case := rfl
  grouped := rfl
  parsing := rfl
  single_pack := rfl
  mode := rfl

lemma sorted_without {t : OptTable} (excludeOption : Info → Bool)
    (hs : t.tablegenMode = true → sortedByName t.searchable) :
    (t.without excludeOption).tablegenMode = true →
      sortedByName (t.without excludeOption).searchable := by
  intro hmode
  have hsorted := hs hmode
  rw [sortedByName] at hsorted
  rw [without_searchable, sortedByName, List.pairwise_map]
  simpa only [withdrawn_name] using hsorted

variable {t t' : OptTable} {excludeOption : Info → Bool}

lemma candidate_live (excludeOption : Info → Bool) (hcase : t'.ignoreCase = t.ignoreCase)
    (str : Str) (i : Info) :
    t.candidate excludeOption str i =
      if i.isOption && !excludeOption i then t'.candidate (fun _ => false) str i else none := by
  rw [OptTable.candidate, OptTable.candidate, hcase]
  cases hex : excludeOption i with
  | true => simp
  | false =>
    cases hk : i.kind with
    | group | input | unknown | values => simp [Info.isOption, Info.declines, hk]
    | _ => simp [Info.isOption, hk]

lemma findSome?_live (excludeOption : Info → Bool) (hcase : t'.ignoreCase = t.ignoreCase)
    (str : Str)
    (is : List Info) :
    is.findSome? (t.candidate excludeOption str) =
      (is.filter fun i => i.isOption && !excludeOption i).findSome?
        (t'.candidate (fun _ => false) str) := by
  induction is with
  | nil => rfl
  | cons i is ih =>
    rw [List.findSome?_cons, candidate_live excludeOption hcase, List.filter_cons, ih]
    cases i.isOption && !excludeOption i with
    | true => rfl
    | false => rfl

lemma searchFrom_filter (t : OptTable) (hs : t.tablegenMode = true → sortedByName t.searchable)
    (p : Info → Bool)
    (str : Str) :
    (t.searchFrom str).filter p =
      if t.tablegenMode then
        (t.searchable.filter p).drop
          (lowerBound (fun i => optNameLess i (ltrimAllOf str t.prefixChars))
            (t.searchable.filter p))
      else t.searchable.filter p := by
  rw [OptTable.searchFrom]
  split_ifs with hmode
  · exact filter_drop_lowerBound _ _ _ ((hs hmode).partitioned _)
  · rfl

lemma Removes.taking_eq (h : Removes t excludeOption t')
    (hs : t.tablegenMode = true → sortedByName t.searchable)
    (hs' : t'.tablegenMode = true → sortedByName t'.searchable) (str : Str) :
    t.taking excludeOption str = t'.taking (fun _ => false) str := by
  have hchars : t'.prefixChars = t.prefixChars := by
    rw [OptTable.prefixChars, OptTable.prefixChars, h.union]
  have hlive : (t'.searchFrom str).filter (fun i => i.isOption && !false) =
      (t.searchFrom str).filter fun i => i.isOption && !excludeOption i := by
    simp only [Bool.not_false, Bool.and_true]
    rw [searchFrom_filter t hs, searchFrom_filter t' hs', h.options, hchars, h.mode]
  rw [OptTable.taking, findSome?_live excludeOption h.case, ← hlive, OptTable.taking]
  exact (findSome?_live (fun _ => false) rfl str (t'.searchFrom str)).symm

lemma Removes.isInput_eq (h : Removes t excludeOption t') (str : Str) :
    isInput t' str = isInput t str := by
  rw [isInput, isInput, h.union]

lemma Removes.takeOne_emitted (h : Removes t excludeOption t')
    (htaking : ∀ str, t.taking excludeOption str = t'.taking (fun _ => false) str) (index : ℕ)
    (str : Str)
    (following : List Str) :
    (takeOne t excludeOption index str following).1.map ParsedArgument.emitted =
        (takeOne t' (fun _ => false) index str following).1.map ParsedArgument.emitted ∧
      (takeOne t excludeOption index str following).2 =
        (takeOne t' (fun _ => false) index str following).2 := by
  rw [takeOne, takeOne, h.isInput_eq, htaking, h.input]
  split_ifs
  · exact ⟨rfl, rfl⟩
  · cases t'.taking (fun _ => false) str with
    | none => simp only [untaken, h.input, h.unknown, and_self]
    | some p =>
      simp only [takeWith, Option.map_map, and_true]
      congr 1
      funext values
      simp [ParsedArgument.emitted, found]

lemma Removes.inputsFrom_eq (h : Removes t excludeOption t') (index : ℕ) (following : List Str) :
    inputsFrom t' index following = inputsFrom t index following := by
  induction following generalizing index with
  | nil => rfl
  | cons str following ih => rw [inputsFrom, inputsFrom, ih, h.input]

lemma Removes.stepsAlike (h : Removes t excludeOption t')
    (hs : t.tablegenMode = true → sortedByName t.searchable)
    (hs' : t'.tablegenMode = true → sortedByName t'.searchable) :
    StepsAlike t t' excludeOption (fun _ => false) id ParsedArgument.emitted where
  parsing := h.parsing.symm
  empty := by
    rintro str _ rfl
    rfl
  stop := by
    rintro str _ rfl
    rfl
  passed := by
    intro index following following' hkey
    obtain rfl : following = following' := by simpa using hkey
    rw [dashDashArgs, dashDashArgs, h.single_pack, h.input, h.inputsFrom_eq]
  taken := by
    rintro index str _ following following' rfl hkey
    obtain rfl : following = following' := by simpa using hkey
    exact h.takeOne_emitted (h.taking_eq hs hs') index str following

def EmitAlike (p p' : Except Failure ParseResult) : Prop :=
  ∃ r r', p = .ok r ∧ p' = .ok r' ∧ r.view ParsedArgument.emitted = r'.view ParsedArgument.emitted

lemma Removes.emitAlike (h : Removes t excludeOption t') (hg : t.groupedShortOptions = false)
    (hs : t.tablegenMode = true → sortedByName t.searchable)
    (hs' : t'.tablegenMode = true → sortedByName t'.searchable) (argv : List Str) :
    EmitAlike (internalParseArgs t excludeOption argv)
      (internalParseArgs t' (fun _ => false) argv) :=
  ⟨_, _, internalParseArgs_eq t excludeOption hg argv,
    internalParseArgs_eq t' (fun _ => false) (h.grouped.trans hg) argv,
    (h.stepsAlike hs hs').parseFrom_view 0 rfl⟩

lemma emitAlike_without (hg : t.groupedShortOptions = false)
    (hs : t.tablegenMode = true → sortedByName t.searchable) (excludeOption : Info → Bool)
    (argv : List Str) :
    EmitAlike (internalParseArgs t excludeOption argv)
      (internalParseArgs (t.without excludeOption) (fun _ => false) argv) :=
  (removes_without t excludeOption).emitAlike hg hs (sorted_without excludeOption hs) argv

theorem hidden_options_absent (t : OptTable) (hg : t.groupedShortOptions = false)
    (hs : t.tablegenMode = true → sortedByName t.searchable) (t' : OptTable)
    (hs' : t'.tablegenMode = true → sortedByName t'.searchable) (argv : List Str) :
    (∀ visibilityMask, Removes t (hiddenFrom visibilityMask) t' →
      EmitAlike (parseArgs t visibilityMask argv) (internalParseArgs t' (fun _ => false) argv)) ∧
    ∀ flagsToInclude flagsToExclude, Removes t (outsideFlags flagsToInclude flagsToExclude) t' →
      EmitAlike (parseArgsByFlags t flagsToInclude flagsToExclude argv)
        (internalParseArgs t' (fun _ => false) argv) := by
  constructor
  · intro visibilityMask h
    exact h.emitAlike hg hs hs' argv
  · intro flagsToInclude flagsToExclude h
    exact h.emitAlike hg hs hs' argv

def levelTable : OptTable where
  optionInfos := [.input 1, .unknown 2,
    { Info.unaliasedOne [dash] (lit "-O2") 3 .flag 0 with visibility := 2 },
    .unaliasedOne [dash] (lit "-O") 4 .joined 1]
  tablegenMode := true

def plainLevelTable : OptTable where
  optionInfos := [.input 1, .unknown 2, .unaliasedOne [dash] (lit "-O") 4 .joined 1]
  tablegenMode := true

theorem hidden_options_absent_level :
    EmitAlike (parseArgs levelTable 1 [lit "-O2", lit "a"])
      (internalParseArgs plainLevelTable (fun _ => false) [lit "-O2", lit "a"]) :=
  (hidden_options_absent levelTable rfl (by decide) plainLevelTable (by decide) [lit "-O2",
    lit "a"]).1 1
    ⟨by decide, by decide, rfl, rfl, rfl, rfl, rfl, rfl, rfl⟩

end Catter.Opt
