import Catter.Opt.Accept

/-! The search for the option that takes an argument, with and without grouped
short options. -/

namespace Catter.Opt

open Text

variable (t : OptTable)

def slash : UInt8 := 47

def equalsSign : UInt8 := 61

def dashChar : UInt8 := 45

def plain (optionId : ℕ) (str : Str) (index : ℕ) : ParsedArgument :=
  ⟨optionId, str, [], index, none, none⟩

-- The two nested loops of `internal_parse_one_arg`; `none` when they run to the end.
def searchOptions (excludeOption : Info → Bool) (argv : List Str) (str : Str) (index : ℕ) :
    List Info → Option (Option ParsedArgument × ℕ)
  | [] => none
  | i :: is =>
    let argSz := matchOpt i str t.ignoreCase
    if argSz = 0 then searchOptions excludeOption argv str index is
    else if excludeOption i then searchOptions excludeOption argv str index is
    else
      let a := accept t i argv (str.take argSz) false index
      if a.1.isSome then some a
      else if index ≠ a.2 then some (none, a.2)
      else searchOptions excludeOption argv str index is

def internalParseOneArg (excludeOption : Info → Bool) (argv : List Str) (index : ℕ) :
    Option ParsedArgument × ℕ :=
  let str := argv.getD index []
  if isInput t str then (some (plain t.inputOptionId str index), index + 1)
  else match searchOptions t excludeOption argv str index (t.searchFrom str) with
    | some a => a
    | none =>
      if str.getD 0 0 = slash then (some (plain t.inputOptionId str index), index + 1)
      else (some (plain t.unknownOptionId str index), index + 1)

inductive Failure
  | outOfRange
  | outOfFuel
deriving DecidableEq

-- The loop of `parse_one_arg_grouped`, which also keeps the last flag of one letter.
def groupedSearch (argv : List Str) (str : Str) (index : ℕ) :
    List Info → Option Info → Option (Option ParsedArgument × ℕ) × Option Info
  | [], fallback => (none, fallback)
  | i :: is, fallback =>
    let argSz := matchOpt i str t.ignoreCase
    if argSz = 0 then groupedSearch argv str index is fallback
    else
      let a := accept t i argv (str.take argSz) false index
      if a.1.isSome then (some a, fallback)
      else
        let fallback := if argSz = 2 ∧ i.kind = .flag then some i else fallback
        if index ≠ a.2 then (some (none, a.2), fallback)
        else groupedSearch argv str index is fallback

-- No flag starts the group: its first letter is split off as an unknown option.
def splitUnknown (argv : List Str) (index : ℕ) :
    Except Failure (List Str × Option ParsedArgument × ℕ) :=
  let str := argv.getD index []
  if str.getD 1 0 ≠ dashChar then
    -- `substr(2)` throws on an argument of one character.
    if str.length < 2 then .error .outOfRange
    else .ok (argv.set index (dashChar :: str.drop 2),
      some (plain t.unknownOptionId (toSpellingArray (str.take 2)) index), index)
  else .ok (argv, some (plain t.unknownOptionId str index), index + 1)

-- The arguments, in which the current one may have been replaced, the result and the new index.
def parseOneArgGrouped (argv : List Str) (index : ℕ) :
    Except Failure (List Str × Option ParsedArgument × ℕ) :=
  let str := argv.getD index []
  if isInput t str then .ok (argv, some (plain t.inputOptionId str index), index + 1)
  else match groupedSearch t argv str index (t.searchFrom str) none with
    | (some a, _) => .ok (argv, a.1, a.2)
    | (none, none) => splitUnknown t argv index
    | (none, some fallbackOpt) =>
      if str.getD 2 0 = equalsSign then
        .ok (argv, some (plain t.unknownOptionId str index), index + 1)
      else match accept t fallbackOpt argv (str.take 2) true index with
        | (some a, index') => .ok (argv.set index (dashChar :: str.drop 2), some a, index')
        | (none, _) => splitUnknown t argv index

/-! The option that takes an argument is the first one that matches it, is not
excluded and does not decline. Only then do the arguments that follow matter. -/

def OptTable.candidate (excludeOption : Info → Bool) (str : Str) (i : Info) : Option (Info × ℕ) :=
  let size := matchOpt i str t.ignoreCase
  if size = 0 ∨ excludeOption i ∨ i.declines size str.length then none else some (i, size)

def OptTable.taking (excludeOption : Info → Bool) (str : Str) : Option (Info × ℕ) :=
  (t.searchFrom str).findSome? (t.candidate excludeOption str)

def found (i : Info) (spelling : Str) (values : List Str) (index : ℕ) : ParsedArgument :=
  unalias t i ⟨i.id, spelling, values, index, none, none⟩

def untaken (str : Str) : ℕ := if str.getD 0 0 = slash then t.inputOptionId else t.unknownOptionId

def takeWith (index : ℕ) (str : Str) (following : List Str) (p : Info × ℕ) :
    Option ParsedArgument × ℕ :=
  let taken := consume p.1 p.2 str following
  (taken.1.map fun values => found t p.1 (str.take p.2) values index, taken.2)

def takeOne (excludeOption : Info → Bool) (index : ℕ) (str : Str) (following : List Str) :
    Option ParsedArgument × ℕ :=
  if isInput t str then (some (plain t.inputOptionId str index), 1)
  else match t.taking excludeOption str with
    | none => (some (plain (untaken t str) str index), 1)
    | some p => takeWith t index str following p

lemma searchOptions_eq (excludeOption : Info → Bool) (argv : List Str) (index : ℕ)
    (h : index < argv.length)
    (is : List Info) :
    searchOptions t excludeOption argv (argv.getD index []) index is =
      (is.findSome? (t.candidate excludeOption (argv.getD index []))).map fun p =>
        let taken := takeWith t index (argv.getD index []) (argv.drop (index + 1)) p
        (taken.1, index + taken.2) := by
  induction is with
  | nil => rfl
  | cons i is ih =>
    have haccept := accept_ungrouped t i argv
      ((argv.getD index []).take (matchOpt i (argv.getD index []) t.ignoreCase)) index
    rw [acceptInternal_eq i argv _ index h, List.length_take_of_le (matchOpt_le _ _ _)] at haccept
    generalize argv.getD index [] = str at *
    rw [searchOptions, List.findSome?_cons]
    by_cases hsize : matchOpt i str t.ignoreCase = 0
    · have hc : t.candidate excludeOption str i = none := if_pos (Or.inl hsize)
      rw [if_pos hsize, hc, ih]
    · rw [if_neg hsize]
      by_cases hex : excludeOption i = true
      · have hc : t.candidate excludeOption str i = none := if_pos (Or.inr (Or.inl hex))
        rw [if_pos hex, hc, ih]
      · rw [if_neg hex, haccept]
        by_cases hd : i.declines (matchOpt i str t.ignoreCase) str.length = true
        · have hc : t.candidate excludeOption str i = none := if_pos (Or.inr (Or.inr hd))
          rw [consume_declines _ hd, hc, ih]
          simp
        · have hc : t.candidate excludeOption str i = some (i, matchOpt i str t.ignoreCase) :=
            if_neg (by simp [hsize, hex, hd])
          have hpos := consume_pos (argv.drop (index + 1)) (Bool.eq_false_iff.mpr hd)
          rw [hc]
          simp only [takeWith, Option.map_some]
          cases hv : consume i (matchOpt i str t.ignoreCase) str (argv.drop (index + 1)) with
          | mk vs n =>
            rw [hv] at hpos
            have hn : n ≠ 0 := by
              simp only at hpos
              omega
            cases vs <;> simp [hn, found]

lemma internalParseOneArg_eq (excludeOption : Info → Bool) (argv : List Str) (index : ℕ)
    (h : index < argv.length) :
    internalParseOneArg t excludeOption argv index =
      let taken := takeOne t excludeOption index (argv.getD index []) (argv.drop (index + 1))
      (taken.1, index + taken.2) := by
  simp only [internalParseOneArg, takeOne, searchOptions_eq t excludeOption argv index h,
    OptTable.taking, untaken]
  by_cases hin : isInput t (argv.getD index []) = true
  · simp only [if_pos hin]
  · simp only [if_neg hin]
    cases List.findSome? _ _ with
    | some p => rfl
    | none =>
      simp only [Option.map_none]
      split_ifs <;> rfl

lemma taking_some {excludeOption : Info → Bool} {str : Str} {i : Info} {size : ℕ}
    (h : t.taking excludeOption str = some (i, size)) :
    i ∈ t.searchFrom str ∧ size = matchOpt i str t.ignoreCase ∧ size ≠ 0 ∧ excludeOption i = false ∧
      i.declines size str.length = false := by
  obtain ⟨j, hj, he⟩ := List.exists_of_findSome?_eq_some h
  simp only [OptTable.candidate] at he
  split_ifs at he with hc
  obtain ⟨rfl, rfl⟩ := Prod.mk.inj (Option.some.inj he)
  simp only [not_or, Bool.not_eq_true] at hc
  exact ⟨hj, rfl, hc.1, hc.2.1, hc.2.2⟩

lemma takeOne_pos (excludeOption : Info → Bool) (index : ℕ) (str : Str) (following : List Str) :
    0 < (takeOne t excludeOption index str following).2 := by
  rw [takeOne]
  split_ifs
  · exact Nat.one_pos
  · cases ht : t.taking excludeOption str with
    | none => exact Nat.one_pos
    | some p => exact consume_pos following (taking_some t ht).2.2.2.2

lemma takeOne_none_count {excludeOption : Info → Bool} {index n : ℕ} {str : Str}
    {following : List Str}
    (h : takeOne t excludeOption index str following = (none, n)) : 2 ≤ n := by
  rw [takeOne] at h
  split_ifs at h
  · simp at h
  · cases ht : t.taking excludeOption str with
    | none => simp [ht] at h
    | some p =>
      simp only [ht, takeWith, Prod.mk.injEq, Option.map_eq_none_iff] at h
      obtain ⟨hnone, rfl⟩ := h
      exact consume_none_count (taking_some t ht).2.2.2.2 hnone

end Catter.Opt
