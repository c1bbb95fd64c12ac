import Catter.Opt.Tablegen

/-! In a sorted table the longest option that applies is taken: the search meets a name
before the names that are its prefixes. -/

namespace Catter.Opt

open Text Library.EndLast

variable (t : OptTable)

def acceptAt (argv : List Str) (index : ℕ) (i : Info) : Option ParsedArgument × ℕ :=
  let str := argv.getD index []
  accept t i argv (str.take (matchOpt i str t.ignoreCase)) false index

def stops (excludeOption : Info → Bool) (argv : List Str) (index : ℕ) (i : Info) : Bool :=
  matchOpt i (argv.getD index []) t.ignoreCase ≠ 0 && !excludeOption i && acceptAt t argv index i ≠
    (none, index)

def stopsAt (excludeOption : Info → Bool) (argv : List Str) (index : ℕ) : Option Info :=
  if isInput t (argv.getD index []) then none
  else (t.searchFrom (argv.getD index [])).find? (stops t excludeOption argv index)

structure Longest (excludeOption : Info → Bool) (argv : List Str) (index : ℕ) (o : Info) :
    Prop where
  taken : internalParseOneArg t excludeOption argv index = acceptAt t argv index o
  longest : ∀ q ∈ t.searchable, excludeOption q = false → o.name.length < q.name.length →
    matchOpt q (argv.getD index []) t.ignoreCase ≠ 0 → acceptAt t argv index q = (none, index)

lemma stops_iff {excludeOption : Info → Bool} {argv : List Str} {index : ℕ} {i : Info} :
    stops t excludeOption argv index i = true ↔ matchOpt i (argv.getD index []) t.ignoreCase ≠ 0 ∧
      excludeOption i = false ∧ acceptAt t argv index i ≠ (none, index) := by
  simp only [stops, Bool.and_eq_true, decide_eq_true_iff, Bool.not_eq_true', and_assoc]

lemma searchOptions_find (excludeOption : Info → Bool) (argv : List Str) (index : ℕ)
    (is : List Info) :
    searchOptions t excludeOption argv (argv.getD index []) index is =
      (is.find? (stops t excludeOption argv index)).map (acceptAt t argv index) := by
  induction is with
  | nil => rfl
  | cons i is ih =>
    have hat :
      accept t i argv ((argv.getD index []).take (matchOpt i (argv.getD index []) t.ignoreCase))
        false
        index = acceptAt t argv index i := rfl
    rw [searchOptions, List.find?_cons, hat, ih]
    cases hstops : stops t excludeOption argv index i with
    | true =>
      obtain ⟨hsize, hex, hmoved⟩ := (stops_iff t).mp hstops
      rw [if_neg hsize, hex, if_neg Bool.false_ne_true, Option.map_some]
      cases ha : acceptAt t argv index i with
      | mk a index' =>
        cases a with
        | some a => rfl
        | none =>
          rw [ha] at hmoved
          have hne : index ≠ index' := fun he => hmoved (by rw [he])
          simp [hne]
    | false =>
      have hnot := mt (stops_iff t).mpr (Bool.eq_false_iff.mp hstops)
      by_cases hsize : matchOpt i (argv.getD index []) t.ignoreCase = 0
      · rw [if_pos hsize]
      · rw [if_neg hsize]
        cases hex : excludeOption i with
        | true => rw [if_pos rfl]
        | false =>
          have hdeclines : acceptAt t argv index i = (none, index) := by
            by_contra hmoved
            exact hnot ⟨hsize, hex, hmoved⟩
          simp [hdeclines]

lemma internalParseOneArg_stopsAt (excludeOption : Info → Bool) (argv : List Str) (index : ℕ) :
    internalParseOneArg t excludeOption argv index = match stopsAt t excludeOption argv index with
      | some o => acceptAt t argv index o
      | none => (some (plain (if isInput t (argv.getD index []) then t.inputOptionId
          else untaken t (argv.getD index [])) (argv.getD index []) index), index + 1) := by
  rw [internalParseOneArg, stopsAt, searchOptions_find]
  cases isInput t (argv.getD index []) with
  | true => rfl
  | false =>
    simp only [Bool.false_eq_true, if_false]
    cases (t.searchFrom (argv.getD index [])).find? (stops t excludeOption argv index) with
    | some o => rfl
    | none =>
      simp only [untaken, Option.map_none]
      split_ifs <;> rfl

-- Two entries match one argument after prefixes of different lengths only where the name behind the
-- shorter prefix is empty.
lemma name_eq_nil_of_longer_prefix {i : Info} (hn : avoidsPrefixChars t i) {str p q : Str}
    (hp : p <+: str)
    (hq : q <+: str) (hlen : p.length < q.length) (hchars : ∀ c ∈ q, c ∈ t.prefixChars)
    (hname : nameMatches t.ignoreCase (str.drop p.length) i.name = true) : i.name = [] := by
  by_contra he
  obtain ⟨d, rest, hrest⟩ : ∃ d rest, q.drop p.length = d :: rest := by
    apply List.exists_cons_of_ne_nil
    rw [Ne, List.drop_eq_nil_iff]
    omega
  obtain ⟨after, rfl⟩ := hq
  rw [List.drop_append_of_le_length hlen.le, hrest, List.cons_append] at hname
  apply not_prefixChar_of_match t hn he hname
  apply hchars
  apply List.mem_of_mem_drop
  rw [hrest]
  exact List.mem_cons_self

lemma longer_name_first (hu : t.trimsPrefixes) (hn : ∀ i ∈ t.searchable, avoidsPrefixChars t i)
    {o q : Info}
    (ho : o ∈ t.searchable) (hq : q ∈ t.searchable) {str : Str}
    (hmo : matchOpt o str t.ignoreCase ≠ 0)
    (hmq : matchOpt q str t.ignoreCase ≠ 0) (hlen : o.name.length < q.name.length) :
    nameKey q.name < nameKey o.name := by
  obtain ⟨po, hpo, hprefixo, hnameo, -⟩ := matchOpt_pos hmo
  obtain ⟨pq, hpq, hprefixq, hnameq, -⟩ := matchOpt_pos hmq
  apply endLast_lt_of_longer
  · obtain hlt | heq | hgt := lt_trichotomy po.length pq.length
    · have hempty := name_eq_nil_of_longer_prefix t (hn o ho) hprefixo hprefixq hlt
        (hu q hq pq hpq) hnameo
      simp [hempty]
    · rw [heq] at hnameo
      apply List.prefix_of_prefix_length_le (foldCase_prefix_of_matches hnameo)
        (foldCase_prefix_of_matches hnameq)
      simpa using hlen.le
    · have hempty := name_eq_nil_of_longer_prefix t (hn q hq) hprefixq hprefixo hgt
        (hu o ho po hpo) hnameq
      simp [hempty] at hlen
  · simpa using hlen

lemma stopsAt_longest (hs : sortedByName t.searchable) (hu : t.trimsPrefixes)
    (hn : ∀ i ∈ t.searchable, avoidsPrefixChars t i) {excludeOption : Info → Bool} {argv : List Str}
    {index : ℕ}
    {o : Info} (ho : stopsAt t excludeOption argv index = some o) :
    Longest t excludeOption argv index o := by
  constructor
  · rw [internalParseOneArg_stopsAt, ho]
  · intro q hq hex hlen hmq
    by_contra hdeclines
    have hstops : stops t excludeOption argv index q = true :=
      (stops_iff t).mpr ⟨hmq, hex, hdeclines⟩
    rw [stopsAt] at ho
    split_ifs at ho with hin
    obtain ⟨hstopso, before, after, hsplit, hbefore⟩ := List.find?_eq_some_iff_append.mp ho
    obtain ⟨skipped, hfrom, hskipped⟩ := searchFrom_skipped t hu (fun _ => hs) (argv.getD index [])
      fun i hi _ => hn i hi
    have hosearchable : o ∈ t.searchable := by
      rw [hfrom, hsplit]
      simp
    have hless := longer_name_first t hu hn hosearchable hq ((stops_iff t).mp hstopso).1 hmq hlen
    -- The longer name is neither skipped nor passed before `o`, and behind `o` the table is not
    -- sorted.
    have hafter : q ∈ after := by
      rw [hfrom, hsplit] at hq
      simp only [List.mem_append, List.mem_cons] at hq
      obtain hq | hq | rfl | hq := hq
      · exact absurd (hskipped q hq) hmq
      · exact absurd (hbefore q hq) (by simp [hstops])
      · exact absurd hlen (lt_irrefl _)
      · exact hq
    rw [hfrom, hsplit, sortedByName, List.pairwise_append] at hs
    have hordered := (List.pairwise_cons.mp (List.pairwise_append.mp hs.2.1).2.1).1 q hafter
    exact hordered ((strCmpOptName_lt_iff _ _).mpr hless)

theorem longest_option_wins (hs : sortedByName t.searchable) (hu : t.trimsPrefixes)
    (hn : ∀ i ∈ t.searchable, avoidsPrefixChars t i) (excludeOption : Info → Bool) (argv : List Str)
    (index : ℕ) :
    (stopsAt t excludeOption argv index = none →
      ∃ id, (id = t.inputOptionId ∨ id = t.unknownOptionId) ∧
      internalParseOneArg t excludeOption argv index =
        (some (plain id (argv.getD index []) index), index + 1)) ∧
    ∀ o, stopsAt t excludeOption argv index = some o → Longest t excludeOption argv index o := by
  constructor
  · intro hnone
    refine ⟨_, ?_, by rw [internalParseOneArg_stopsAt, hnone]⟩
    rw [untaken]
    split_ifs <;> simp
  · intro o ho
    exact stopsAt_longest t hs hu hn ho

def overlapTable : OptTable where
  optionInfos := [.input 1, .unknown 2, .unaliasedOne [dash, dashDash] (lit "-output") 3 .flag 0,
    .unaliasedOne [dash] (lit "-out") 4 .flag 0,
      .unaliasedOne [dash, dashDash] (lit "-o") 5 .joined 1]
  ignoreCase := true
  tablegenMode := true

theorem longest_option_wins_output :
    Longest overlapTable
      (fun _ => false) [lit "-OUT"] 0 (.unaliasedOne [dash] (lit "-out") 4 .flag 0) :=
  (longest_option_wins overlapTable (by decide)
    (trimsPrefixes_of_computed overlapTable rfl) (by decide) (fun _ => false) [lit "-OUT"] 0).2 _
      (by decide)

-- Behind the prefix "-" the first name spells "M", the letter of the prefix "-M".
def letterPrefixTable : OptTable where
  optionInfos := [.input 1, .unknown 2, .unaliasedOne [dash] (lit "-m") 3 .joined 1,
    .unaliasedOne [lit "-M"] (lit "-Mxyz") 4 .flag 0]
  ignoreCase := true

-- The union that is given lacks a character of the second prefix.
def givenUnionTable : OptTable where
  optionInfos := [.input 1, .unknown 2, .unaliasedOne [dash] (lit "-xz") 3 .joined 1,
    .unaliasedOne [lit "-x"] (lit "-xzoo") 4 .flag 0]
  givenPrefixes := [dash]

theorem longer_option_loses :
    (¬ ∀ t : OptTable, t.givenPrefixes = [] → sortedByName t.searchable →
      (∀ i ∈ t.searchable, ∀ c ∈ i.name.head?, c ∉ t.prefixChars) → ∀ excludeOption argv index o,
        stopsAt t excludeOption argv index = some o → Longest t excludeOption argv index o) ∧
    ¬ ∀ t : OptTable, t.ignoreCase = false → sortedByName t.searchable →
      (∀ i ∈ t.searchable, ∀ c ∈ i.name.head?, c ∉ t.prefixChars) → ∀ excludeOption argv index o,
        stopsAt t excludeOption argv index = some o → Longest t excludeOption argv index o := by
  constructor
  · intro hclaim
    have hlongest := (hclaim letterPrefixTable rfl (by decide) (by decide)
      (fun _ => false) [lit "-Mxyz"] 0
      (.unaliasedOne [dash] (lit "-m") 3 .joined 1) (by decide)).longest
      (.unaliasedOne [lit "-M"] (lit "-Mxyz") 4 .flag 0)
    exact absurd (hlongest (by decide) rfl (by decide) (by decide)) (by decide)
  · intro hclaim
    have hlongest := (hclaim givenUnionTable rfl (by decide) (by decide)
      (fun _ => false) [lit "-xzoo"] 0
      (.unaliasedOne [dash] (lit "-xz") 3 .joined 1) (by decide)).longest
      (.unaliasedOne [lit "-x"] (lit "-xzoo") 4 .flag 0)
    exact absurd (hlongest (by decide) rfl (by decide) (by decide)) (by decide)

end Catter.Opt
