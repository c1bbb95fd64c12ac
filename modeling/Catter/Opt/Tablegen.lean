import Catter.Opt.NameOrder
import Catter.Opt.Search

/-! The search that starts at the lower bound of the trimmed argument skips only
options that do not match. -/

namespace Catter.Opt

open Text Library.PartitionPoint

variable (t : OptTable)

def OptTable.setTablegenMode (tablegenMode : Bool) : OptTable := { t with tablegenMode }

-- Letter case counts as the search counts it.
def avoidsPrefixChars (i : Info) : Prop :=
  ∀ c ∈ i.name.head?, ∀ p ∈ t.prefixChars, c ≠ p ∧
    (t.ignoreCase = true → safeTolower c ≠ safeTolower p)

instance (i : Info) : Decidable (avoidsPrefixChars t i) :=
  inferInstanceAs (Decidable (∀ c ∈ i.name.head?, ∀ p ∈ t.prefixChars,
    c ≠ p ∧ (t.ignoreCase = true → safeTolower c ≠ safeTolower p)))

lemma searchOptions_setTablegenMode (tablegenMode : Bool) (excludeOption : Info → Bool)
    (argv : List Str)
    (str : Str) (index : ℕ) (is : List Info) :
    searchOptions (t.setTablegenMode tablegenMode) excludeOption argv str index is =
      searchOptions t excludeOption argv str index is := by
  induction is with
  | nil => rfl
  | cons i is ih =>
    rw [searchOptions, searchOptions, ih]
    rfl

lemma groupedSearch_setTablegenMode (tablegenMode : Bool) (argv : List Str) (str : Str) (index : ℕ)
    (is : List Info) (fallback : Option Info) :
    groupedSearch (t.setTablegenMode tablegenMode) argv str index is fallback =
      groupedSearch t argv str index is fallback := by
  induction is generalizing fallback with
  | nil => rfl
  | cons i is ih =>
    simp only [groupedSearch, ih]
    rfl

lemma searchOptions_skip {excludeOption : Info → Bool} {argv : List Str} {str : Str} {index : ℕ}
    {skipped : List Info} (h : ∀ i ∈ skipped, matchOpt i str t.ignoreCase = 0) (is : List Info) :
    searchOptions t excludeOption argv str index (skipped ++ is) =
      searchOptions t excludeOption argv str index is := by
  induction skipped with
  | nil => rfl
  | cons i skipped ih =>
    rw [List.cons_append, searchOptions, if_pos (h i List.mem_cons_self)]
    apply ih
    intro j hj
    exact h j (List.mem_cons_of_mem _ hj)

lemma groupedSearch_skip {argv : List Str} {str : Str} {index : ℕ} {skipped : List Info}
    (h : ∀ i ∈ skipped, matchOpt i str t.ignoreCase = 0) (is : List Info) (fallback : Option Info) :
    groupedSearch t argv str index (skipped ++ is) fallback =
      groupedSearch t argv str index is fallback := by
  induction skipped with
  | nil => rfl
  | cons i skipped ih =>
    rw [List.cons_append, groupedSearch, if_pos (h i List.mem_cons_self)]
    apply ih
    intro j hj
    exact h j (List.mem_cons_of_mem _ hj)

def OptTable.trimsPrefixes : Prop :=
  ∀ i ∈ t.searchable, ∀ pfx ∈ i.prefixes, ∀ c ∈ pfx, c ∈ t.prefixChars

lemma trimsPrefixes_of_computed (hu : t.givenPrefixes = []) : t.trimsPrefixes := by
  intro i hi pfx hp c hc
  rw [OptTable.prefixChars, List.mem_dedup, List.mem_flatten, OptTable.prefixesUnion, if_pos hu]
  exact ⟨pfx, List.mem_dedup.mpr (List.mem_flatMap.mpr ⟨i, hi, hp⟩), hc⟩

lemma not_prefixChar_of_match {i : Info} (hn : avoidsPrefixChars t i) (he : i.name ≠ []) {d : UInt8}
    {rest : Str}
    (hname : nameMatches t.ignoreCase (d :: rest) i.name = true) : d ∉ t.prefixChars := by
  intro hd
  obtain ⟨c, name, hcons⟩ := List.exists_cons_of_ne_nil he
  obtain ⟨hne, hfold⟩ := hn c (by rw [hcons]; rfl) d hd
  rw [hcons] at hname
  cases hic : t.ignoreCase with
  | false =>
    rw [hic] at hname
    exact hne (List.cons_prefix_cons.mp (List.isPrefixOf_iff_prefix.mp hname)).1
  | true =>
    rw [hic] at hname
    exact hfold hic (List.cons_prefix_cons.mp (List.isPrefixOf_iff_prefix.mp hname)).1

-- Trimming cuts exactly the prefix off, since the name cannot begin with a prefix character.
lemma not_less_of_match (hu : t.trimsPrefixes) {i : Info} (hi : i ∈ t.searchable)
    (hn : avoidsPrefixChars t i) {str : Str} (h : matchOpt i str t.ignoreCase ≠ 0) :
    optNameLess i (ltrimAllOf str t.prefixChars) = false := by
  obtain ⟨pfx, hpfx, ⟨rest, rfl⟩, hname, -⟩ := matchOpt_pos h
  rw [List.drop_left] at hname
  have htrim : ltrimAllOf (pfx ++ rest) t.prefixChars = ltrimAllOf rest t.prefixChars := by
    apply List.dropWhile_append_of_pos
    intro c hc
    exact List.contains_iff_mem.mpr (hu i hi pfx hpfx c hc)
  rw [htrim]
  by_cases he : i.name = []
  · have hempty : nameMatches false (ltrimAllOf rest t.prefixChars) i.name = true := by
      rw [he]
      rfl
    exact not_optNameLess_of_matches hempty
  · have hhead : ltrimAllOf rest t.prefixChars = rest := by
      cases rest with
      | nil => rfl
      | cons d rest =>
        apply List.dropWhile_cons_of_neg
        rw [List.contains_iff_mem]
        exact not_prefixChar_of_match t hn he hname
    rw [hhead]
    exact not_optNameLess_of_matches hname

lemma searchFrom_skipped (hu : t.trimsPrefixes)
    (hs : t.tablegenMode = true → sortedByName t.searchable) (str : Str)
    (hn : ∀ i ∈ t.searchable, matchOpt i str t.ignoreCase ≠ 0 → avoidsPrefixChars t i) :
    ∃ skipped, t.searchable = skipped ++ t.searchFrom str ∧
      ∀ i ∈ skipped, matchOpt i str t.ignoreCase = 0 := by
  rw [OptTable.searchFrom]
  split_ifs with hmode
  · let less := fun i => optNameLess i (ltrimAllOf str t.prefixChars)
    refine ⟨t.searchable.take (lowerBound less t.searchable), (List.take_append_drop _ _).symm, ?_⟩
    intro i hi
    have hless : less i = true :=
      less_of_mem_take_lowerBound less t.searchable ((hs hmode).partitioned _) i hi
    by_contra hmatch
    have hsearchable := List.mem_of_mem_take hi
    have hnot := not_less_of_match t hu hsearchable (hn i hsearchable hmatch) hmatch
    exact Bool.false_ne_true (hnot.symm.trans hless)
  · exact ⟨[], rfl, by simp⟩

theorem tablegen_search_agrees (hu : t.givenPrefixes = []) (hs : sortedByName t.searchable)
    (hn : ∀ i ∈ t.searchable, avoidsPrefixChars t i) (excludeOption : Info → Bool) (argv : List Str)
    (index : ℕ) :
    internalParseOneArg (t.setTablegenMode true) excludeOption argv index =
        internalParseOneArg (t.setTablegenMode false) excludeOption argv index ∧
      parseOneArgGrouped (t.setTablegenMode true) argv index =
        parseOneArgGrouped (t.setTablegenMode false) argv index := by
  obtain ⟨skipped, hfrom, hskipped⟩ := searchFrom_skipped (t.setTablegenMode true)
    (trimsPrefixes_of_computed _ hu) (fun _ => hs) (argv.getD index []) fun i hi _ => hn i hi
  have hlinear : (t.setTablegenMode false).searchFrom (argv.getD index []) =
    (t.setTablegenMode true).searchable :=
    rfl
  constructor
  · have hsearch :
        searchOptions (t.setTablegenMode true) excludeOption argv (argv.getD index []) index
            ((t.setTablegenMode true).searchFrom (argv.getD index [])) =
          searchOptions (t.setTablegenMode false) excludeOption argv (argv.getD index []) index
            ((t.setTablegenMode false).searchFrom (argv.getD index [])) := by
      rw [searchOptions_setTablegenMode, searchOptions_setTablegenMode, hlinear, hfrom,
        searchOptions_skip t hskipped]
    rw [internalParseOneArg, hsearch]
    rfl
  · have hsearch : groupedSearch (t.setTablegenMode true) argv (argv.getD index []) index
          ((t.setTablegenMode true).searchFrom (argv.getD index [])) none =
        groupedSearch (t.setTablegenMode false) argv (argv.getD index []) index
          ((t.setTablegenMode false).searchFrom (argv.getD index [])) none := by
      rw [groupedSearch_setTablegenMode, groupedSearch_setTablegenMode, hlinear, hfrom,
        groupedSearch_skip t hskipped]
    rw [parseOneArgGrouped, hsearch]
    rfl

def warningInfos : List Info :=
  [.input 1, .unknown 2, .unaliasedOne [dash, dashDash] (lit "-verbose") 3 .flag 0,
    .unaliasedOne [dash] (lit "-Wall") 4 .flag 0, .unaliasedOne [dash] (lit "-W") 5 .joined 1]

theorem tablegen_search_agrees_warning_flags :
    internalParseOneArg
      (OptTable.setTablegenMode { optionInfos := warningInfos, ignoreCase := true } true)
        (fun _ => false) [lit "-WALL"] 0 =
      internalParseOneArg
        (OptTable.setTablegenMode { optionInfos := warningInfos, ignoreCase := true } false)
        (fun _ => false) [lit "-WALL"] 0 :=
  (tablegen_search_agrees { optionInfos := warningInfos, ignoreCase := true } rfl (by decide)
    (by decide) (fun _ => false) [lit "-WALL"] 0).1

def letterPrefixInfos : List Info :=
  [.input 1, .unknown 2, .unaliasedOne [dash] (lit "-ab") 3 .flag 0,
    .unaliasedOne [lit "A"] (lit "Ax") 4 .flag 0]

theorem letter_prefix_trims_a_name :
    sortedByName (OptTable.searchable { optionInfos := letterPrefixInfos, ignoreCase := true }) ∧
      (∀ i ∈ OptTable.searchable { optionInfos := letterPrefixInfos, ignoreCase := true },
        ∀ c ∈ i.name.head?, c ∉ OptTable.prefixChars
          { optionInfos := letterPrefixInfos, ignoreCase := true }) ∧
      internalParseOneArg
        (OptTable.setTablegenMode { optionInfos := letterPrefixInfos, ignoreCase := true } true)
          (fun _ => false) [lit "-Ab"] 0 ≠
        internalParseOneArg (OptTable.setTablegenMode
          { optionInfos := letterPrefixInfos, ignoreCase := true } false)
          (fun _ => false) [lit "-Ab"] 0 := by
  decide

end Catter.Opt
