import Catter.Opt.NameOrder
import Catter.Opt.Parse

/-! Parsing without regard to letter case: arguments that differ in the case of letters
only are parsed alike. -/

namespace Catter.Opt

open Text

def isLetter (c : UInt8) : Bool := (65 ≤ c && c ≤ 90) || (97 ≤ c && c ≤ 122)

def foldText (str : Str) : Str := str.map safeTolower

def letterFree (str : Str) : Prop := ∀ c ∈ str, isLetter c = false

instance (str : Str) : Decidable (letterFree str) :=
  inferInstanceAs (Decidable (∀ c ∈ str, isLetter c = false))

structure IgnoresCase (t : OptTable) : Prop where
  ignores : t.ignoreCase = true
  union : ∀ pfx ∈ t.prefixesUnion, letterFree pfx
  prefixes : ∀ i ∈ t.searchable, ∀ pfx ∈ i.prefixes, letterFree pfx

def ParsedArgument.folded (a : ParsedArgument) : ParsedArgument :=
  { a with spelling := foldText a.spelling, values := a.values.map foldText }

/-! Comparisons with characters and texts that have no letters. -/

lemma eq_of_safeTolower {c d : UInt8} (hd : isLetter d = false)
    (h : safeTolower c = safeTolower d) : c = d := by
  rw [safeTolower, safeTolower] at h
  simp only [isLetter, Bool.or_eq_false_iff, Bool.and_eq_false_iff, decide_eq_false_iff_not] at hd
  grind

@[simp] lemma foldText_length (str : Str) : (foldText str).length = str.length := List.length_map _

lemma foldText_eq_nil {str str' : Str} (h : foldText str = foldText str') :
    str = [] ↔ str' = [] := by
  rw [← List.length_eq_zero_iff, ← foldText_length str, h, foldText_length, List.length_eq_zero_iff]

lemma prefix_of_foldText {pfx str str' : Str} (hl : letterFree pfx)
    (h : foldText str = foldText str')
    (hp : pfx <+: str) : pfx <+: str' := by
  induction pfx generalizing str str' with
  | nil => exact List.nil_prefix
  | cons d pfx ih =>
    obtain ⟨rest, rfl⟩ := hp
    cases str' with
    | nil => simp [foldText] at h
    | cons c str' =>
      obtain ⟨hhead, htail⟩ := List.cons.inj h
      rw [List.cons_prefix_cons]
      constructor
      · exact (eq_of_safeTolower (hl d List.mem_cons_self) hhead.symm).symm
      · exact ih (fun e he => hl e (List.mem_cons_of_mem _ he)) htail (List.prefix_append pfx rest)

lemma isPrefixOf_foldText {pfx str str' : Str} (hl : letterFree pfx)
    (h : foldText str = foldText str') :
    pfx.isPrefixOf str = pfx.isPrefixOf str' := by
  rw [Bool.eq_iff_iff, List.isPrefixOf_iff_prefix, List.isPrefixOf_iff_prefix]
  exact ⟨prefix_of_foldText hl h, prefix_of_foldText hl h.symm⟩

lemma eq_iff_of_foldText {text str str' : Str} (hl : letterFree text)
    (h : foldText str = foldText str') :
    str = text ↔ str' = text := by
  have hlen : str.length = str'.length := by rw [← foldText_length str, h, foldText_length]
  constructor
  · rintro rfl
    exact ((prefix_of_foldText hl h (List.prefix_refl _)).eq_of_length hlen).symm
  · rintro rfl
    exact ((prefix_of_foldText hl h.symm (List.prefix_refl _)).eq_of_length hlen.symm).symm

lemma foldText_dropWhile {chars : List UInt8} (hl : letterFree chars) {str str' : Str}
    (h : foldText str = foldText str') :
    foldText (ltrimAllOf str chars) = foldText (ltrimAllOf str' chars) := by
  induction str generalizing str' with
  | nil =>
    obtain rfl := (foldText_eq_nil h).mp rfl
    rfl
  | cons c str ih =>
    cases str' with
    | nil => simp [foldText] at h
    | cons c' str' =>
      obtain ⟨hhead, htail⟩ := List.cons.inj h
      rw [ltrimAllOf, ltrimAllOf, List.dropWhile_cons, List.dropWhile_cons]
      by_cases hc : c ∈ chars
      · obtain rfl := eq_of_safeTolower (hl c hc) hhead.symm
        simp only [List.contains_iff_mem.mpr hc, if_true]
        exact ih htail
      · have hc' : c' ∉ chars := by
          intro hc'
          obtain rfl := eq_of_safeTolower (hl c' hc') hhead
          exact hc hc'
        simp only [List.contains_eq_mem, hc, hc', decide_false, Bool.false_eq_true, if_false]
        exact h

lemma map_foldCase (str : Str) : str.map foldCase = (foldText str).map fun c => c.toInt8.toInt := by
  rw [foldText, List.map_map]
  rfl

lemma nameKey_foldText {str str' : Str} (h : foldText str = foldText str') :
    nameKey str = nameKey str' := by
  rw [nameKey, nameKey, map_foldCase, h, map_foldCase]

/-! The option that takes an argument. -/

section Search

variable {t : OptTable} {str str' : Str}

lemma IgnoresCase.isInput_eq (ht : IgnoresCase t) (h : foldText str = foldText str') :
    isInput t str = isInput t str' := by
  have hdash : (str = dash) = (str' = dash) := propext (eq_iff_of_foldText (by decide) h)
  have hany : t.prefixesUnion.any (fun pfx => pfx.isPrefixOf str) =
      t.prefixesUnion.any fun pfx => pfx.isPrefixOf str' := by
    rw [Bool.eq_iff_iff, List.any_eq_true, List.any_eq_true]
    apply exists_congr
    intro pfx
    apply and_congr_right
    intro hpfx
    rw [isPrefixOf_foldText (ht.union pfx hpfx) h]
  simp only [isInput, hdash, hany]

lemma IgnoresCase.searchFrom_eq (ht : IgnoresCase t) (h : foldText str = foldText str') :
    t.searchFrom str = t.searchFrom str' := by
  have hchars : letterFree t.prefixChars := by
    intro c hc
    rw [OptTable.prefixChars, List.mem_dedup, List.mem_flatten] at hc
    obtain ⟨pfx, hpfx, hmem⟩ := hc
    exact ht.union pfx hpfx c hmem
  have hless : (fun i => optNameLess i (ltrimAllOf str t.prefixChars)) =
      fun i => optNameLess i (ltrimAllOf str' t.prefixChars) := by
    funext i
    rw [Bool.eq_iff_iff, optNameLess_iff, optNameLess_iff,
      nameKey_foldText (foldText_dropWhile hchars h)]
  rw [OptTable.searchFrom, OptTable.searchFrom, hless]

lemma matchOpt_foldText {i : Info} (hi : ∀ pfx ∈ i.prefixes, letterFree pfx)
    (h : foldText str = foldText str') : matchOpt i str true = matchOpt i str' true := by
  have hfind : i.prefixes.find? (matchesWith i true str) =
      i.prefixes.find? (matchesWith i true str') := by
    apply List.find?_congr
    intro pfx hpfx
    have hdrop : foldText (str.drop pfx.length) = foldText (str'.drop pfx.length) := by
      rw [foldText, foldText, List.map_drop, List.map_drop]
      exact congrArg (List.drop pfx.length) h
    rw [foldText, foldText] at hdrop
    rw [matchesWith, matchesWith, isPrefixOf_foldText (hi pfx hpfx) h, nameMatches, nameMatches,
      if_pos rfl,
      if_pos rfl, startsWithInsensitive, startsWithInsensitive, hdrop]
  rw [matchOpt_eq_elim, hfind, ← matchOpt_eq_elim]

lemma IgnoresCase.taking_eq (ht : IgnoresCase t) (excludeOption : Info → Bool)
    (h : foldText str = foldText str') :
    t.taking excludeOption str = t.taking excludeOption str' := by
  have hlen : str.length = str'.length := by rw [← foldText_length str, h, foldText_length]
  have hsame : ∀ is : List Info, is ⊆ t.searchable →
      is.findSome? (t.candidate excludeOption str) =
        is.findSome? (t.candidate excludeOption str') := by
    intro is hsub
    induction is with
    | nil => rfl
    | cons i is ih =>
      obtain ⟨hi, his⟩ := List.cons_subset.mp hsub
      have hcandidate : t.candidate excludeOption str i = t.candidate excludeOption str' i := by
        rw [OptTable.candidate, OptTable.candidate, ht.ignores,
          matchOpt_foldText (ht.prefixes i hi) h, hlen]
      rw [List.findSome?_cons, List.findSome?_cons, hcandidate, ih his]
  rw [OptTable.taking, OptTable.taking, ht.searchFrom_eq h]
  exact hsame _ (searchFrom_subset t str')

lemma untaken_foldText (t : OptTable) (h : foldText str = foldText str') :
    untaken t str = untaken t str' := by
  have hslash : str.getD 0 0 = slash ↔ str'.getD 0 0 = slash := by
    cases str with
    | nil =>
      obtain rfl := (foldText_eq_nil h).mp rfl
      rfl
    | cons c str =>
      cases str' with
      | nil => simp [foldText] at h
      | cons c' str' =>
        have hhead : safeTolower c = safeTolower c' := (List.cons.inj h).1
        constructor
        · rintro rfl
          exact eq_of_safeTolower (by decide) hhead.symm
        · rintro rfl
          exact eq_of_safeTolower (by decide) hhead
  rw [untaken, untaken]
  simp only [hslash]

/-! What the option takes. -/

lemma foldText_drop (str : Str) (n : ℕ) : (foldText str).drop n = foldText (str.drop n) :=
  List.map_drop.symm

lemma foldText_take (str : Str) (n : ℕ) : (foldText str).take n = foldText (str.take n) :=
  List.map_take.symm

lemma foldText_isEmpty (str : Str) : foldText str = [] ↔ str = [] := List.map_eq_nil_iff

lemma commaPieces_foldText (str : Str) :
    commaPieces (foldText str) = (commaPieces str).map foldText := by
  have hcomma : ∀ c, safeTolower c = comma ↔ c = comma := by
    intro c
    constructor
    · intro hc
      exact eq_of_safeTolower (by decide) hc
    · rintro rfl
      rfl
  rw [commaPieces, commaPieces, foldText, splitOn_map hcomma, List.filter_map]
  congr 1
  apply List.filter_congr
  intro v _
  simp

lemma consume_foldText (i : Info) (size : ℕ) (str : Str) (following : List Str) :
    consume i size (foldText str) (following.map foldText) =
      ((consume i size str following).1.map (List.map foldText),
        (consume i size str following).2) := by
  have hnext : (following.map foldText).headD [] = foldText (following.headD []) := by
    cases following <;> rfl
  have hremaining : (following.map foldText).takeWhile (· ≠ []) =
      (following.takeWhile (· ≠ [])).map foldText := by
    rw [List.takeWhile_map]
    congr 2
    funext v
    simp [foldText_isEmpty]
  simp only [consume, foldText_length, foldText_drop, commaPieces_foldText, hnext, hremaining,
    foldText_isEmpty,
    List.length_map]
  cases i.kind with
  | group | input | unknown | values | joined | commaJoined => rfl
  | multiArg =>
    simp only [← List.map_take]
    split_ifs <;> rfl
  | flag | separate | joinedOrSeparate | joinedAndSeparate | remainingArgs =>
    simp only
    split_ifs <;> rfl
  | remainingArgsJoined =>
    simp only [Option.map_some, List.map_append]
    split_ifs <;> rfl

lemma folded_found (t : OptTable) (i : Info) (spelling : Str) (values : List Str) (index : ℕ) :
    (found t i spelling values index).folded =
      found t i (foldText spelling) (values.map foldText) index := by
  cases ha : i.aliasArgs with
  | some vals =>
    simp only [found, unalias, ha]
    split_ifs <;> rfl
  | none =>
    simp only [found, unalias, ha]
    split_ifs <;> rfl

lemma folded_plain (id : ℕ) (index : ℕ) :
    (plain id str index).folded = plain id (foldText str) index := rfl

lemma takeWith_foldText (t : OptTable) (index : ℕ) (str : Str) (following : List Str)
    (p : Info × ℕ) :
    takeWith t index (foldText str) (following.map foldText) p =
      ((takeWith t index str following p).1.map ParsedArgument.folded,
        (takeWith t index str following p).2) := by
  simp only [takeWith, consume_foldText, Option.map_map, foldText_take]
  congr 2
  funext values
  simp [folded_found]

lemma IgnoresCase.takeOne_folded (ht : IgnoresCase t) (excludeOption : Info → Bool) (index : ℕ)
    {following following' : List Str} (h : foldText str = foldText str')
    (hf : following.map foldText = following'.map foldText) :
    (takeOne t excludeOption index str following).1.map ParsedArgument.folded =
        (takeOne t excludeOption index str' following').1.map ParsedArgument.folded ∧
      (takeOne t excludeOption index str following).2 =
        (takeOne t excludeOption index str' following').2 := by
  rw [takeOne, takeOne, ht.isInput_eq h, ht.taking_eq excludeOption h, untaken_foldText t h]
  split_ifs
  · simp only [Option.map_some, folded_plain, h, and_self]
  · cases t.taking excludeOption str' with
    | none => simp only [Option.map_some, folded_plain, h, and_self]
    | some p =>
      have hleft := takeWith_foldText t index str following p
      have hright := takeWith_foldText t index str' following' p
      rw [h, hf, hright, Prod.mk.injEq] at hleft
      exact ⟨hleft.1.symm, hleft.2.symm⟩

lemma inputsFrom_folded (t : OptTable) (index : ℕ) (following : List Str) :
    (inputsFrom t index following).map ParsedArgument.folded =
      inputsFrom t index (following.map foldText) := by
  induction following generalizing index with
  | nil => rfl
  | cons str following ih =>
    rw [inputsFrom, List.map_cons, List.map_cons, inputsFrom, ih, folded_plain]

lemma dashDashArgs_folded (t : OptTable) (index : ℕ) (following : List Str) :
    (dashDashArgs t index following).map ParsedArgument.folded =
      dashDashArgs t index (following.map foldText) := by
  rw [dashDashArgs, dashDashArgs]
  split_ifs
  · rfl
  · exact inputsFrom_folded t (index + 1) following

end Search

lemma IgnoresCase.stepsAlike {t : OptTable} (ht : IgnoresCase t) (excludeOption : Info → Bool) :
    StepsAlike t t excludeOption excludeOption foldText ParsedArgument.folded where
  parsing := rfl
  empty _ _ := foldText_eq_nil
  stop _ _ := eq_iff_of_foldText (by decide)
  passed index following following' h := by rw [dashDashArgs_folded, dashDashArgs_folded, h]
  taken index _ _ _ _ h hf := ht.takeOne_folded excludeOption index h hf

theorem case_ignored {t : OptTable} (ht : IgnoresCase t) (hg : t.groupedShortOptions = false)
    (excludeOption : Info → Bool) {argv argv' : List Str}
    (h : argv.map foldText = argv'.map foldText) :
    ∃ r r', internalParseArgs t excludeOption argv = .ok r ∧
      internalParseArgs t excludeOption argv' = .ok r' ∧
      r.view ParsedArgument.folded = r'.view ParsedArgument.folded :=
  ⟨_, _, internalParseArgs_eq t excludeOption hg argv,
    internalParseArgs_eq t excludeOption hg argv',
    (ht.stepsAlike excludeOption).parseFrom_view 0 h⟩

def defineTable : OptTable where
  optionInfos := [.input 1, .unknown 2,
    .unaliasedOne [dash, lit "/"] (lit "-define") 3 .commaJoined 1,
    .unaliasedOne [dash, lit "/"] (lit "-out") 4 .separate 1]
  ignoreCase := true
  tablegenMode := true

theorem case_ignored_define :
    ∃ r r', internalParseArgs defineTable
      (fun _ => false) [lit "/DefineA,b", lit "-OUT", lit "x"] = .ok r ∧
      internalParseArgs defineTable
        (fun _ => false) [lit "/dEFINEa,B", lit "-out", lit "X"] = .ok r' ∧
      r.view ParsedArgument.folded = r'.view ParsedArgument.folded :=
  case_ignored ⟨rfl, by decide, by decide⟩ rfl _ (by decide)

end Catter.Opt
