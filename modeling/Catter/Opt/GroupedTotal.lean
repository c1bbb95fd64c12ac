import Catter.Opt.Parse

/-! Grouped parsing: its termination, the reads it makes in an argument, and the one
argument that it cuts outside its length. -/

namespace Catter.Opt

open Text

variable (t : OptTable)

/-! `str[k]` and `str.substr(k)`, refused outside the text. -/

def readAt (str : Str) (k : ℕ) : Except Failure UInt8 :=
  if k < str.length then .ok (str.getD k 0) else .error .outOfRange

def cutFrom (str : Str) (k : ℕ) : Except Failure Str :=
  if k ≤ str.length then .ok (str.drop k) else .error .outOfRange

def checkedSplitUnknown (argv : List Str) (index : ℕ) :
    Except Failure (List Str × Option ParsedArgument × ℕ) := do
  let str := argv.getD index []
  let second ← readAt str 1
  if second ≠ dashChar then
    let rest ← cutFrom str 2
    return (argv.set index (dashChar :: rest),
      some (plain t.unknownOptionId (toSpellingArray (str.take 2)) index), index)
  else return (argv, some (plain t.unknownOptionId str index), index + 1)

def checkedOneArgGrouped (argv : List Str) (index : ℕ) :
    Except Failure (List Str × Option ParsedArgument × ℕ) :=
  let str := argv.getD index []
  if isInput t str then .ok (argv, some (plain t.inputOptionId str index), index + 1)
  else match groupedSearch t argv str index (t.searchFrom str) none with
    | (some a, _) => .ok (argv, a.1, a.2)
    | (none, none) => checkedSplitUnknown t argv index
    | (none, some fallbackOpt) => do
      let third ← readAt str 2
      if third = equalsSign then return (argv, some (plain t.unknownOptionId str index), index + 1)
      else match accept t fallbackOpt argv (str.take 2) true index with
        | (some a, index') =>
          let rest ← cutFrom str 2
          return (argv.set index (dashChar :: rest), some a, index')
        | (none, _) => checkedSplitUnknown t argv index

/-! What the search gives. -/

lemma groupedSearch_fst (argv : List Str) (str : Str) (index : ℕ) (is : List Info)
    (fallback : Option Info) :
    (groupedSearch t argv str index is fallback).1 = searchOptions t
      (fun _ => false) argv str index is := by
  induction is generalizing fallback with
  | nil => rfl
  | cons i is ih =>
    rw [groupedSearch, searchOptions]
    simp only [Bool.false_eq_true, if_false]
    split_ifs <;> first | rfl | apply ih

-- A flag that was kept matched two letters of a longer argument.
def GroupFlag (str : Str) (f : Info) : Prop :=
  f.kind = .flag ∧ matchOpt f str t.ignoreCase = 2 ∧ 2 < str.length

lemma groupedSearch_snd {argv : List Str} {index : ℕ} (h : index < argv.length) (is : List Info)
    {fallback : Option Info} (hf : ∀ f ∈ fallback, GroupFlag t (argv.getD index []) f) :
    ∀ f ∈ (groupedSearch t argv (argv.getD index []) index is fallback).2,
      GroupFlag t (argv.getD index []) f := by
  induction is generalizing fallback with
  | nil => exact hf
  | cons i is ih =>
    have hle := matchOpt_le i (argv.getD index []) t.ignoreCase
    have haccept := accept_ungrouped t i argv
      ((argv.getD index []).take (matchOpt i (argv.getD index []) t.ignoreCase)) index
    rw [acceptInternal_eq i argv _ index h, List.length_take_of_le hle] at haccept
    generalize argv.getD index [] = str at *
    rw [groupedSearch]
    by_cases hsize : matchOpt i str t.ignoreCase = 0
    · rw [if_pos hsize]
      exact ih hf
    · rw [if_neg hsize]
      by_cases ha :
        (accept t i argv (str.take (matchOpt i str t.ignoreCase)) false index).1.isSome = true
      · rw [if_pos ha]
        exact hf
      · have hkept : ∀ f ∈ (if matchOpt i str t.ignoreCase = 2 ∧ i.kind = .flag then some i
            else fallback),
              GroupFlag t str f := by
          split_ifs with hflag
          · rintro f ⟨⟩
            obtain ⟨htwo, hk⟩ := hflag
            refine ⟨hk, htwo, ?_⟩
            by_contra hshort
            have hexact : matchOpt i str t.ignoreCase = str.length := by omega
            rw [haccept] at ha
            simp [consume, hk, hexact] at ha
          · exact hf
        rw [if_neg ha]
        generalize (if matchOpt i str t.ignoreCase = 2 ∧ i.kind = .flag then some i else fallback) =
          kept at hkept ⊢
        by_cases hmoved :
          index ≠ (accept t i argv (str.take (matchOpt i str t.ignoreCase)) false index).2
        · rw [if_pos hmoved]
          exact hkept
        · rw [if_neg hmoved]
          exact ih hkept

lemma searchOptions_advances {excludeOption : Info → Bool} {argv : List Str} {index : ℕ}
    (h : index < argv.length) {is : List Info} {a : Option ParsedArgument × ℕ}
    (ha : searchOptions t excludeOption argv (argv.getD index []) index is = some a) :
    index < a.2 := by
  rw [searchOptions_eq t excludeOption argv index h, Option.map_eq_some_iff] at ha
  obtain ⟨p, hp, rfl⟩ := ha
  obtain ⟨i, -, hi⟩ := List.exists_of_findSome?_eq_some hp
  simp only [OptTable.candidate] at hi
  split_ifs at hi with hc
  obtain rfl := Option.some.inj hi
  simp only [not_or, Bool.not_eq_true] at hc
  have hpos := consume_pos (argv.drop (index + 1)) hc.2.2
  simp only [takeWith]
  omega

theorem checkedSplitUnknown_eq (argv : List Str) (index : ℕ) :
    checkedSplitUnknown t argv index = splitUnknown t argv index := by
  rw [checkedSplitUnknown, splitUnknown]
  generalize argv.getD index [] = str
  by_cases hlen : 1 < str.length
  · have hcut : 2 ≤ str.length := hlen
    have hlong : ¬ str.length < 2 := by omega
    simp only [readAt, cutFrom, if_pos hlen, if_pos hcut, if_neg hlong]
    rfl
  · have hzero : str.getD 1 0 = 0 := by simp [List.getElem?_eq_none (by omega : str.length ≤ 1)]
    have hshort : str.length < 2 := by omega
    rw [hzero, if_pos (by decide), if_pos hshort]
    simp only [readAt, if_neg hlen]
    rfl

-- The reads with their bounds checked give the same, so `outOfRange` tells that one is outside.
theorem checkedOneArgGrouped_eq {argv : List Str} {index : ℕ} (h : index < argv.length) :
    checkedOneArgGrouped t argv index = parseOneArgGrouped t argv index := by
  have hnone : ∀ f ∈ (none : Option Info), GroupFlag t (argv.getD index []) f := by simp
  have hsnd := groupedSearch_snd t h (t.searchFrom (argv.getD index [])) hnone
  rw [checkedOneArgGrouped, parseOneArgGrouped]
  simp only [checkedSplitUnknown_eq]
  generalize argv.getD index [] = str at *
  cases hsearch : groupedSearch t argv str index (t.searchFrom str) none with
  | mk a last =>
    rw [hsearch] at hsnd
    cases a with
    | some a => rfl
    | none =>
      cases last with
      | none => rfl
      | some f =>
        obtain ⟨-, -, hlen⟩ := hsnd f rfl
        have hread : readAt str 2 = .ok (str.getD 2 0) := if_pos hlen
        have hcut : cutFrom str 2 = .ok (str.drop 2) := if_pos hlen.le
        rw [hread, hcut]
        rfl

/-! One step: it moves the index, or shortens the current argument, or fails. -/

def Shortens (argv argv' : List Str) (index : ℕ) : Prop :=
  2 ≤ (argv.getD index []).length ∧ argv' = argv.set index (dashChar :: (argv.getD index []).drop 2)

lemma splitUnknown_step {argv argv' : List Str} {a : Option ParsedArgument} {index index' : ℕ}
    (h : splitUnknown t argv index = .ok (argv', a, index')) :
    index < index' ∧ argv' = argv ∨ index' = index ∧ Shortens argv argv' index := by
  rw [splitUnknown] at h
  split_ifs at h with hdash hshort
  · cases h
    exact Or.inr ⟨rfl, by omega, rfl⟩
  · cases h
    exact Or.inl ⟨Nat.lt_succ_self _, rfl⟩

lemma splitUnknown_ok_iff (argv : List Str) (index : ℕ) :
    (∃ o, splitUnknown t argv index = .ok o) ↔ ¬ (argv.getD index []).length < 2 := by
  rw [splitUnknown]
  generalize argv.getD index [] = str
  by_cases hlen : str.length < 2
  · have hzero : str.getD 1 0 = 0 := by simp [List.getElem?_eq_none (by omega : str.length ≤ 1)]
    rw [hzero, if_pos (by decide), if_pos hlen]
    simp [hlen]
  · rw [if_neg hlen]
    split_ifs
    · exact iff_of_true ⟨_, rfl⟩ hlen
    · exact iff_of_true ⟨_, rfl⟩ hlen

lemma parseOneArgGrouped_step {argv argv' : List Str} {a : Option ParsedArgument} {index index' : ℕ}
    (h : index < argv.length) (hstep : parseOneArgGrouped t argv index = .ok (argv', a, index')) :
    index < index' ∧ argv' = argv ∨ index' = index ∧ Shortens argv argv' index := by
  have hnone : ∀ f ∈ (none : Option Info), GroupFlag t (argv.getD index []) f := by simp
  have hsnd := groupedSearch_snd t h (t.searchFrom (argv.getD index [])) hnone
  have hfst := groupedSearch_fst t argv (argv.getD index []) index
    (t.searchFrom (argv.getD index [])) none
  rw [parseOneArgGrouped] at hstep
  by_cases hin : isInput t (argv.getD index []) = true
  · rw [if_pos hin] at hstep
    cases hstep
    exact Or.inl ⟨Nat.lt_succ_self _, rfl⟩
  · rw [if_neg hin] at hstep
    cases hsearch :
      groupedSearch t argv (argv.getD index []) index (t.searchFrom (argv.getD index [])) none with
    | mk taken last =>
      rw [hsearch] at hsnd hfst hstep
      cases taken with
      | some taken =>
        cases hstep
        exact Or.inl ⟨searchOptions_advances t h hfst.symm, rfl⟩
      | none =>
        cases last with
        | none => exact splitUnknown_step t hstep
        | some f =>
          obtain ⟨hk, -, hlen⟩ := hsnd f rfl
          simp only [accept, hk, and_self, if_true, Option.map_some] at hstep
          split_ifs at hstep with heq
          · cases hstep
            exact Or.inl ⟨Nat.lt_succ_self _, rfl⟩
          · cases hstep
            exact Or.inr ⟨rfl, hlen.le, rfl⟩

def utilPrefixes : List Str := [dash, dashDash, lit "/"]

def strandsSlash : Bool := !isInput t (lit "/") && (t.taking (fun _ => false) (lit "/")).isNone

lemma eq_slash_of_length_one (hunion : ∀ pfx ∈ t.prefixesUnion, pfx ∈ utilPrefixes) {str : Str}
    (hin : isInput t str = false) (hs : str ≠ []) (hlen : str.length < 2) : str = lit "/" := by
  simp only [isInput, Bool.or_eq_false_iff, decide_eq_false_iff_not, Bool.not_eq_false',
    List.any_eq_true,
    List.isPrefixOf_iff_prefix] at hin
  obtain ⟨hdash, pfx, hpfx, hprefix⟩ := hin
  have hone : str.length = 1 := by
    have hpos := List.length_pos_iff.mpr hs
    omega
  have hle := hprefix.length_le
  have hwhole : pfx.length = 1 → pfx = str := fun hl => hprefix.eq_of_length (by omega)
  have hutil := hunion pfx hpfx
  simp only [utilPrefixes, List.mem_cons, List.not_mem_nil, or_false] at hutil
  obtain rfl | rfl | rfl := hutil
  · exact absurd (hwhole rfl).symm hdash
  · have htwo : dashDash.length = 2 := rfl
    omega
  · exact (hwhole rfl).symm

lemma searchOptions_eq_none {argv : List Str} {index : ℕ} (h : index < argv.length) :
    searchOptions t (fun _ => false) argv (argv.getD index []) index
      (t.searchFrom (argv.getD index [])) = none ↔
      t.taking (fun _ => false) (argv.getD index []) = none := by
  rw [searchOptions_eq t _ argv index h, Option.map_eq_none_iff, OptTable.taking]

lemma parseOneArgGrouped_ok_iff (hunion : ∀ pfx ∈ t.prefixesUnion, pfx ∈ utilPrefixes)
    {argv : List Str}
    {index : ℕ} (h : index < argv.length) (hs : argv.getD index [] ≠ []) :
    (∃ o, parseOneArgGrouped t argv index = .ok o) ↔
      (argv.getD index [] = lit "/" → strandsSlash t = false) := by
  have hnone : ∀ f ∈ (none : Option Info), GroupFlag t (argv.getD index []) f := by simp
  have hsnd := groupedSearch_snd t h (t.searchFrom (argv.getD index [])) hnone
  have hfst := groupedSearch_fst t argv (argv.getD index []) index
    (t.searchFrom (argv.getD index [])) none
  have htaking := searchOptions_eq_none t h
  rw [← hfst] at htaking
  have hsplit := splitUnknown_ok_iff t argv index
  rw [parseOneArgGrouped]
  generalize argv.getD index [] = str at *
  cases hin : isInput t str with
  | true =>
    apply iff_of_true
    · exact ⟨_, rfl⟩
    · rintro rfl
      simp [strandsSlash, hin]
  | false =>
    rw [if_neg Bool.false_ne_true]
    cases hsearch : groupedSearch t argv str index (t.searchFrom str) none with
    | mk taken last =>
      rw [hsearch] at hsnd htaking
      cases taken with
      | some taken =>
        apply iff_of_true
        · exact ⟨_, rfl⟩
        · rintro rfl
          cases ht : t.taking (fun _ => false) (lit "/") with
          | none => simp [ht] at htaking
          | some p => simp [strandsSlash, ht]
      | none =>
        cases last with
        | none =>
          rw [hsplit]
          constructor
          · rintro hlong rfl
            exact absurd (by decide) hlong
          · intro htaken hshort
            obtain rfl := eq_slash_of_length_one t hunion hin hs hshort
            have hstrands : strandsSlash t = true := by simp [strandsSlash, hin, htaking.mp rfl]
            rw [htaken rfl] at hstrands
            cases hstrands
        | some f =>
          obtain ⟨hk, -, hlong⟩ := hsnd f rfl
          apply iff_of_true
          · simp only [accept, hk, and_self, if_true, Option.map_some]
            split_ifs
            · exact ⟨_, rfl⟩
            · exact ⟨_, rfl⟩
          · rintro rfl
            exact absurd hlong (by decide)

/-! What is left of the arguments from the index on, weighed argument by argument. -/

def weigh (weight : Str → ℕ) (argv : List Str) (index : ℕ) : ℕ := ((argv.drop index).map weight).sum

def remainingText (argv : List Str) (index : ℕ) : ℕ := weigh List.length argv index

lemma weigh_succ (weight : Str → ℕ) {argv : List Str} {index : ℕ} (h : index < argv.length) :
    weigh weight argv index = weight (argv.getD index []) + weigh weight argv (index + 1) := by
  rw [weigh, drop_eq_getD_cons h, List.map_cons, List.sum_cons, weigh]

lemma weigh_le (weight : Str → ℕ) (argv : List Str) {index index' : ℕ} (h : index ≤ index') :
    weigh weight argv index' ≤ weigh weight argv index := by
  induction index', h using Nat.le_induction with
  | base => exact le_rfl
  | succ index' _ ih =>
    apply le_trans _ ih
    by_cases hlt : index' < argv.length
    · rw [weigh_succ weight hlt]
      exact Nat.le_add_left _ _
    · simp [weigh, List.drop_eq_nil_of_le (by omega : argv.length ≤ index' + 1)]

lemma weigh_set (weight : Str → ℕ) {argv : List Str} {index : ℕ} (h : index < argv.length)
    (str : Str) :
    weigh weight (argv.set index str) index = weight str + weigh weight argv (index + 1) := by
  have hset : index < (argv.set index str).length := by simpa using h
  rw [weigh_succ weight hset, weigh, weigh, List.drop_set_of_lt (Nat.lt_succ_self index)]
  simp [h]

lemma Shortens.weigh_lt {argv argv' : List Str} {index : ℕ} (h : index < argv.length)
    (hs : Shortens argv argv' index) {weight : Str → ℕ}
    (hw : ∀ a b : Str, a.length < b.length → weight a < weight b) :
    weigh weight argv' index < weigh weight argv index := by
  obtain ⟨hlen, rfl⟩ := hs
  rw [weigh_set weight h, weigh_succ weight h]
  apply Nat.add_lt_add_right
  apply hw
  simp only [List.length_cons, List.length_drop]
  omega

/-! The states that the loop reaches: the arguments as they stand, and the index. -/

def AtOption (now : List Str) (index : ℕ) : Prop :=
  index < now.length ∧ now.getD index [] ≠ [] ∧
    ¬ (t.dashDashParsing = true ∧ now.getD index [] = dashDash)

inductive GroupedReach (argv : List Str) : List Str → ℕ → Prop
  | start : GroupedReach argv argv 0
  | skip {now index} : GroupedReach argv now index → index < now.length → now.getD index [] = [] →
    GroupedReach argv now (index + 1)
  | step {now next index index' a} : GroupedReach argv now index → AtOption t now index →
    parseOneArgGrouped t now index = .ok (next, some a, index') → GroupedReach argv next index'

structure GroupedTotal (excludeOption : Info → Bool) (argv : List Str) : Prop where
  completes : ∃ r, internalParseArgs t excludeOption argv = .ok r
  in_range : ∀ now index, GroupedReach t argv now index → AtOption t now index →
    ∃ o, checkedOneArgGrouped t now index = .ok o
  shrinks : ∀ now next index index' a, GroupedReach t argv now index → AtOption t now index →
    parseOneArgGrouped t now index = .ok (next, a, index') →
    index < index' ∨ index' = index ∧ remainingText next index < remainingText now index

lemma parseLoop_skip (excludeOption : Info → Bool) (fuel : ℕ) {now : List Str} {index : ℕ}
    (h : index < now.length) (hs : now.getD index [] = []) :
    parseLoop t excludeOption (fuel + 1) now index =
      parseLoop t excludeOption fuel now (index + 1) := by
  rw [parseLoop]
  simp only [if_neg (not_le.mpr h), if_pos hs]

lemma parseLoop_atOption (hg : t.groupedShortOptions = true) (excludeOption : Info → Bool)
    (fuel : ℕ)
    {now : List Str} {index : ℕ} (h : AtOption t now index) :
    parseLoop t excludeOption (fuel + 1) now index =
      match parseOneArgGrouped t now index with
      | .error e => .error e
      | .ok (_, none, index') => .ok ⟨[], index, index' - index - 1⟩
      | .ok (next, some a, index') =>
        (parseLoop t excludeOption fuel next index').map (ParseResult.emit a) := by
  obtain ⟨hlt, hs, hdd⟩ := h
  have hparsed : (if t.groupedShortOptions then parseOneArgGrouped t now index
      else .ok (now, internalParseOneArg t excludeOption now index)) =
        parseOneArgGrouped t now index := if_pos hg
  rw [← hparsed]
  exact (if_neg (not_le.mpr hlt)).trans ((if_neg hs).trans (if_neg hdd))

-- Every step takes at least one from the texts, weighed with one more for each argument.
lemma parseLoop_completes (hg : t.groupedShortOptions = true) (excludeOption : Info → Bool)
    {argv : List Str}
    (hok : ∀ now index, GroupedReach t argv now index → AtOption t now index →
      ∃ o, parseOneArgGrouped t now index = .ok o)
    (fuel : ℕ) {now : List Str} {index : ℕ} (hreach : GroupedReach t argv now index)
    (hfuel : weigh (fun str => str.length + 1) now index < fuel) :
    ∃ r, parseLoop t excludeOption fuel now index = .ok r := by
  induction fuel generalizing now index with
  | zero => omega
  | succ fuel ih =>
    by_cases hend : now.length ≤ index
    · rw [parseLoop, if_pos hend]
      exact ⟨_, rfl⟩
    · have hlt : index < now.length := by omega
      have hnext := weigh_succ (fun str => str.length + 1) hlt
      by_cases hs : now.getD index [] = []
      · rw [parseLoop_skip t excludeOption fuel hlt hs]
        exact ih (.skip hreach hlt hs) (by omega)
      · by_cases hdd : t.dashDashParsing = true ∧ now.getD index [] = dashDash
        · rw [parseLoop]
          simp only [if_neg hend, if_neg hs, if_pos hdd]
          exact ⟨_, rfl⟩
        · have hat : AtOption t now index := ⟨hlt, hs, hdd⟩
          obtain ⟨⟨next, a, index'⟩, ho⟩ := hok now index hreach hat
          rw [parseLoop_atOption t hg excludeOption fuel hat, ho]
          cases a with
          | none => exact ⟨_, rfl⟩
          | some a =>
            have hless : weigh (fun str => str.length + 1) next index' < fuel := by
              obtain ⟨hadvance, rfl⟩ | ⟨rfl, hshort⟩ := parseOneArgGrouped_step t hlt ho
              · have hle := weigh_le
                  (fun str => str.length + 1) next (show index + 1 ≤ index' from hadvance)
                omega
              · have hlt' := hshort.weigh_lt hlt (fun a b hab => Nat.add_lt_add_right hab 1)
                omega
            obtain ⟨r, hr⟩ := ih (.step hreach hat ho) hless
            exact ⟨r.emit a, by simp only [hr, Except.map]⟩

lemma reach_completes (hg : t.groupedShortOptions = true) {excludeOption : Info → Bool}
    {argv now : List Str}
    {index : ℕ} (h : ∃ r, internalParseArgs t excludeOption argv = .ok r)
    (hreach : GroupedReach t argv now index) :
    ∃ fuel r, parseLoop t excludeOption fuel now index = .ok r := by
  induction hreach with
  | start => exact ⟨parseFuel argv, h⟩
  | skip _ hlt hs ih =>
    obtain ⟨fuel, r, hr⟩ := ih
    cases fuel with
    | zero => cases hr
    | succ fuel =>
      rw [parseLoop_skip t excludeOption fuel hlt hs] at hr
      exact ⟨fuel, r, hr⟩
  | @step now next index index' a _ hat hstep ih =>
    obtain ⟨fuel, r, hr⟩ := ih
    cases fuel with
    | zero => cases hr
    | succ fuel =>
      rw [parseLoop_atOption t hg excludeOption fuel hat, hstep] at hr
      cases hrest : parseLoop t excludeOption fuel next index' with
      | error e => simp [hrest, Except.map] at hr
      | ok rest => exact ⟨fuel, rest, hrest⟩

lemma groupedTotal_of (hg : t.groupedShortOptions = true)
    (hunion : ∀ pfx ∈ t.prefixesUnion, pfx ∈ utilPrefixes)
    (excludeOption : Info → Bool) {argv : List Str}
    (h : ∀ now index, GroupedReach t argv now index → now.getD index [] = lit "/" →
      strandsSlash t = false) :
    GroupedTotal t excludeOption argv := by
  have hok : ∀ now index, GroupedReach t argv now index → AtOption t now index →
      ∃ o, parseOneArgGrouped t now index = .ok o := by
    intro now index hreach hat
    exact (parseOneArgGrouped_ok_iff t hunion hat.1 hat.2.1).mpr (h now index hreach)
  constructor
  · apply parseLoop_completes t hg excludeOption hok _ .start
    exact Nat.lt_succ_self _
  · intro now index hreach hat
    rw [checkedOneArgGrouped_eq t hat.1]
    exact hok now index hreach hat
  · intro now next index index' a hreach hat hstep
    obtain ⟨hadvance, -⟩ | ⟨hstay, hshort⟩ := parseOneArgGrouped_step t hat.1 hstep
    · exact Or.inl hadvance
    · exact Or.inr ⟨hstay, hshort.weigh_lt hat.1 fun a b hab => hab⟩

-- Rewritten arguments begin with "-", so a bare "/" is one of the arguments given.
lemma GroupedReach.slash_mem {argv now : List Str} {index : ℕ} (h : GroupedReach t argv now index)
    (hs : lit "/" ∈ now) : lit "/" ∈ argv := by
  induction h with
  | start => exact hs
  | skip _ _ _ ih => exact ih hs
  | step _ hat hstep ih =>
    obtain ⟨-, rfl⟩ | ⟨-, -, rfl⟩ := parseOneArgGrouped_step t hat.1 hstep
    · exact ih hs
    · apply ih
      apply (List.mem_or_eq_of_mem_set hs).resolve_right
      intro he
      exact absurd (List.cons.inj he).1 (by decide)

lemma slash_mem_of_getD {now : List Str} {index : ℕ} (h : now.getD index [] = lit "/") :
    lit "/" ∈ now := by
  have hlt : index < now.length := by
    by_contra hend
    rw [List.getD_eq_getElem?_getD, List.getElem?_eq_none (by omega)] at h
    cases h
  rw [← h, List.getD_eq_getElem?_getD, List.getElem?_eq_getElem hlt]
  exact List.getElem_mem hlt

theorem groupedTotal_of_no_slash (hg : t.groupedShortOptions = true)
    (hunion : ∀ pfx ∈ t.prefixesUnion, pfx ∈ utilPrefixes) (excludeOption : Info → Bool)
    {argv : List Str}
    (h : lit "/" ∉ argv) : GroupedTotal t excludeOption argv := by
  apply groupedTotal_of t hg hunion
  intro now index hreach hslash
  exact absurd (hreach.slash_mem t (slash_mem_of_getD hslash)) h

-- Exactly the vectors that bring the loop to a "/" which the table does not know are not parsed.
theorem grouped_total_iff (hg : t.groupedShortOptions = true)
    (hunion : ∀ pfx ∈ t.prefixesUnion, pfx ∈ utilPrefixes) (excludeOption : Info → Bool)
    (argv : List Str) :
    GroupedTotal t excludeOption argv ↔
      ∀ now index, GroupedReach t argv now index → now.getD index [] = lit "/" →
        strandsSlash t = false := by
  constructor
  · intro htotal now index hreach hslash
    have hat : AtOption t now index := by
      refine ⟨?_, ?_, ?_⟩
      · by_contra hend
        rw [List.getD_eq_getElem?_getD, List.getElem?_eq_none (by omega)] at hslash
        cases hslash
      · rw [hslash]
        decide
      · rw [hslash]
        exact fun hdd => absurd hdd.2 (by decide)
    obtain ⟨fuel, r, hr⟩ := reach_completes t hg htotal.completes hreach
    apply (parseOneArgGrouped_ok_iff t hunion hat.1 hat.2.1).mp _ hslash
    cases fuel with
    | zero => cases hr
    | succ fuel =>
      rw [parseLoop_atOption t hg excludeOption fuel hat] at hr
      cases ho : parseOneArgGrouped t now index with
      | error e => simp [ho] at hr
      | ok o => exact ⟨o, rfl⟩
  · exact groupedTotal_of t hg hunion excludeOption

def slashTable : OptTable where
  optionInfos := [.input 1, .unknown 2, .unaliasedOne [lit "/", dash] (lit "/a") 3 .flag 0,
    .unaliasedOne [lit "/", dash] (lit "/b") 4 .flag 0]
  groupedShortOptions := true

theorem slashTable_groups : GroupedTotal slashTable (fun _ => false) [lit "-ab", lit "/b"] := by
  apply (grouped_total_iff slashTable rfl (by decide) (fun _ => false) [lit "-ab", lit "/b"]).mpr
  intro now index hreach hslash
  exact absurd (hreach.slash_mem slashTable (slash_mem_of_getD hslash)) (by decide)

theorem slashTable_bare_slash_stops :
    ¬ ∀ t : OptTable, t.groupedShortOptions = true → (∀ pfx ∈ t.prefixesUnion, pfx ∈ utilPrefixes) →
      ∀ (excludeOption : Info → Bool) (argv : List Str), GroupedTotal t excludeOption argv := by
  intro hclaim
  obtain ⟨r, hr⟩ := (hclaim slashTable rfl (by decide) (fun _ => false) [lit "/"]).completes
  have hthrows : internalParseArgs slashTable (fun _ => false) [lit "/"] =
    .error .outOfRange := by decide
  rw [hthrows] at hr
  cases hr

end Catter.Opt
