import Catter.Opt.Parse
import Catter.Opt.Tablegen

/-! A group of short flags is read letter by letter, the argument shrinking in place.
An unknown last letter leaves "-" behind, which is then read as an input. -/

namespace Catter.Opt

open Text

variable (t : OptTable)

structure ShortFlags : Prop where
  grouped : t.groupedShortOptions = true
  union_computed : t.givenPrefixes = []
  some_flag : t.searchable ≠ []
  flags : ∀ i ∈ t.searchable, i.kind = .flag ∧ i.prefixes = [dash] ∧ i.name.length = 1
  sorted : t.tablegenMode = true → sortedByName t.searchable

def Info.names (i : Info) (c : UInt8) : Bool := nameMatches t.ignoreCase [c] i.name

def meansLetter (c : UInt8) (id : ℕ) : Prop :=
  (∃ i ∈ t.searchable, i.names t c = true ∧ id = i.id) ∨
    (∀ i ∈ t.searchable, i.names t c = false) ∧ id = t.unknownOptionId

def readsSeparately (letters : Str) (args : List ParsedArgument) : Prop :=
  List.Forall₂ (fun c a => a.spelling = [dashChar, c] ∧ meansLetter t c a.optionId) letters args

inductive Emits : Str → List ParsedArgument → Prop
  | lastFlag {c i a} : i ∈ t.searchable → i.names t c = true → a.optionId = i.id →
    a.spelling = [dashChar, c] →
    Emits [c] [a]
  | lastUnknown {c a b} : (∀ i ∈ t.searchable, i.names t c = false) → Emits [c] [a, b]
  | more {c a rest args} : rest ≠ [] → meansLetter t c a.optionId →
    a.spelling = toSpellingArray [dashChar, c] →
    Emits rest args → Emits (c :: rest) (a :: args)

variable {t}

lemma mem_prefixesUnion (ht : ShortFlags t) : dash ∈ t.prefixesUnion := by
  obtain ⟨i, is, hcons⟩ := List.exists_cons_of_ne_nil ht.some_flag
  have hi : i ∈ t.searchable := by
    rw [hcons]
    exact List.mem_cons_self
  rw [OptTable.prefixesUnion, if_pos ht.union_computed, List.mem_dedup, List.mem_flatMap]
  refine ⟨i, hi, ?_⟩
  rw [(ht.flags i hi).2.1]
  exact List.mem_singleton.mpr rfl

lemma not_isInput_group (ht : ShortFlags t) (c : UInt8) (rest : Str) :
    isInput t (dashChar :: c :: rest) = false := by
  have hany : t.prefixesUnion.any (fun pfx => pfx.isPrefixOf (dashChar :: c :: rest)) = true := by
    rw [List.any_eq_true]
    exact ⟨dash, mem_prefixesUnion ht, rfl⟩
  have hne : dashChar :: c :: rest ≠ dash := by
    intro he
    exact absurd (congrArg List.length he) (by simp [dash, lit])
  simp [isInput, hany, hne]

lemma matchOpt_group (ht : ShortFlags t) {i : Info} (hi : i ∈ t.searchable) (c : UInt8)
    (rest : Str) :
    matchOpt i (dashChar :: c :: rest) t.ignoreCase = if i.names t c then 2 else 0 := by
  obtain ⟨-, hprefixes, hlen⟩ := ht.flags i hi
  obtain ⟨x, hx⟩ := List.length_eq_one_iff.mp hlen
  have hdash : dash.isPrefixOf (dashChar :: c :: rest) = true := rfl
  have hrest : (dashChar :: c :: rest).drop dash.length = c :: rest := rfl
  have hnames : nameMatches t.ignoreCase (c :: rest) i.name = i.names t c := by
    rw [Info.names, hx]
    cases t.ignoreCase <;> simp [nameMatches, startsWithInsensitive, List.isPrefixOf]
  rw [matchOpt, hprefixes, List.find?_singleton, hdash, hrest, hnames, Bool.true_and]
  cases i.names t c with
  | false => rfl
  | true =>
    rw [hx]
    rfl

lemma eq_dashChar_of_safeTolower {c : UInt8} (h : safeTolower c = dashChar) : c = dashChar := by
  rw [safeTolower, dashChar] at *
  grind

lemma eq_dashChar_of_mem_prefixChars (ht : ShortFlags t) {p : UInt8} (hp : p ∈ t.prefixChars) :
    p = dashChar := by
  rw [OptTable.prefixChars, List.mem_dedup, List.mem_flatten, OptTable.prefixesUnion,
    if_pos ht.union_computed] at hp
  obtain ⟨pfx, hpfx, hmem⟩ := hp
  obtain ⟨i, hi, hin⟩ := List.mem_flatMap.mp (List.mem_dedup.mp hpfx)
  rw [(ht.flags i hi).2.1, List.mem_singleton] at hin
  subst hin
  exact List.mem_singleton.mp hmem

lemma avoidsPrefixChars_of_names (ht : ShortFlags t) {c : UInt8} (hc : c ≠ dashChar) {i : Info}
    (hi : i ∈ t.searchable) (hn : i.names t c = true) : avoidsPrefixChars t i := by
  obtain ⟨x, hx⟩ := List.length_eq_one_iff.mp (ht.flags i hi).2.2
  have hfold : safeTolower x = safeTolower c ∧ (t.ignoreCase = false → x = c) := by
    rw [Info.names, hx] at hn
    cases hic : t.ignoreCase with
    | false =>
      rw [hic] at hn
      obtain rfl : x = c := by simpa [nameMatches] using hn
      exact ⟨rfl, fun _ => rfl⟩
    | true =>
      rw [hic] at hn
      exact ⟨by simpa [nameMatches, startsWithInsensitive] using hn, by simp⟩
  intro y hy p hp
  obtain rfl : x = y := by simpa [hx] using hy
  obtain rfl := eq_dashChar_of_mem_prefixChars ht hp
  have hfolded : safeTolower x ≠ dashChar := by
    intro he
    exact hc (eq_dashChar_of_safeTolower (hfold.1.symm.trans he))
  constructor
  · rintro rfl
    exact hfolded rfl
  · intro _
    exact hfolded

lemma mem_searchFrom_of_names (ht : ShortFlags t) {c : UInt8} (hc : c ≠ dashChar) (rest : Str)
    {i : Info}
    (hi : i ∈ t.searchable) (hn : i.names t c = true) :
    i ∈ t.searchFrom (dashChar :: c :: rest) := by
  have havoid : ∀ j ∈ t.searchable, matchOpt j (dashChar :: c :: rest) t.ignoreCase ≠ 0 →
      avoidsPrefixChars t j := by
    intro j hj hmatch
    apply avoidsPrefixChars_of_names ht hc hj
    by_contra hnames
    rw [matchOpt_group ht hj, if_neg hnames] at hmatch
    exact hmatch rfl
  obtain ⟨skipped, hfrom, hskipped⟩ :=
    searchFrom_skipped t (trimsPrefixes_of_computed t ht.union_computed) ht.sorted
      (dashChar :: c :: rest) havoid
  rw [hfrom, List.mem_append] at hi
  rcases hi with hi | hi
  · have hzero := hskipped i hi
    have hsearchable : i ∈ t.searchable := by
      rw [hfrom]
      exact List.mem_append_left _ hi
    rw [matchOpt_group ht hsearchable, if_pos hn] at hzero
    exact absurd hzero (by decide)
  · exact hi

/-! One letter that is not the last one. -/

lemma acceptInternal_flag {i : Info} (hk : i.kind = .flag) (args : List Str) (spelling : Str)
    (index : ℕ) :
    acceptInternal i args spelling index =
      if spelling.length ≠ (args.getD index []).length then (none, index)
      else (some ⟨i.id, spelling, [], index, none, none⟩, index + 1) := by
  simp [acceptInternal, hk]

lemma groupedSearch_inner (ht : ShortFlags t) (c : UInt8) {rest : Str} (hrest : rest ≠ [])
    (is : List Info)
    (his : is ⊆ t.searchable) (fallback : Option Info) :
    ∃ last, groupedSearch t [dashChar :: c :: rest] (dashChar :: c :: rest) 0 is fallback =
      (none, last) ∧
      ((last = fallback ∧ ∀ i ∈ is, i.names t c = false) ∨ ∃ i ∈ is, i.names t c = true ∧
        last = some i) := by
  induction is generalizing fallback with
  | nil => exact ⟨fallback, rfl, Or.inl ⟨rfl, by simp⟩⟩
  | cons i is ih =>
    have hi : i ∈ t.searchable := his List.mem_cons_self
    have hkind := (ht.flags i hi).1
    have hsub : is ⊆ t.searchable := fun j hj => his (List.mem_cons_of_mem _ hj)
    have hlen : 2 ≠ (dashChar :: c :: rest).length := by
      have hpos := List.length_pos_of_ne_nil hrest
      simp only [List.length_cons]
      omega
    rw [groupedSearch, matchOpt_group ht hi]
    cases hn : i.names t c with
    | false =>
      obtain ⟨last, hsearch, hlast⟩ := ih hsub fallback
      refine ⟨last, by simpa using hsearch, ?_⟩
      rcases hlast with ⟨rfl, hnone⟩ | ⟨j, hj, hnj, rfl⟩
      · refine Or.inl ⟨rfl, ?_⟩
        intro j hj
        cases hj with
        | head => exact hn
        | tail _ hj => exact hnone j hj
      · exact Or.inr ⟨j, List.mem_cons_of_mem _ hj, hnj, rfl⟩
    | true =>
      obtain ⟨last, hsearch, hlast⟩ := ih hsub (some i)
      have haccept : accept t i [dashChar :: c :: rest] [dashChar, c] false 0 = (none, 0) := by
        rw [accept_ungrouped, acceptInternal_flag hkind, if_pos (by simpa using hlen)]
        rfl
      refine ⟨last, ?_, Or.inr ?_⟩
      · simpa [haccept, hkind] using hsearch
      · rcases hlast with ⟨rfl, -⟩ | ⟨j, hj, hnj, rfl⟩
        · exact ⟨i, List.mem_cons_self, hn, rfl⟩
        · exact ⟨j, List.mem_cons_of_mem _ hj, hnj, rfl⟩

lemma parseOneArgGrouped_inner (ht : ShortFlags t) {c d : UInt8} (hc : c ≠ dashChar)
    (hd : d ≠ equalsSign)
    (rest : Str) :
    ∃ a, parseOneArgGrouped t [dashChar :: c :: d :: rest] 0 =
      .ok ([dashChar :: d :: rest], some a, 0) ∧
      meansLetter t c a.optionId ∧ a.spelling = toSpellingArray [dashChar, c] := by
  have hsub := searchFrom_subset t (dashChar :: c :: d :: rest)
  obtain ⟨last, hsearch, hlast⟩ :=
    groupedSearch_inner ht c (List.cons_ne_nil d rest) (t.searchFrom (dashChar :: c :: d :: rest))
      hsub none
  have hstr : [dashChar :: c :: d :: rest].getD 0 [] = dashChar :: c :: d :: rest := rfl
  rw [parseOneArgGrouped, hstr, not_isInput_group ht, if_neg Bool.false_ne_true, hsearch]
  rcases hlast with ⟨rfl, hnone⟩ | ⟨i, hi, hn, rfl⟩
  · refine ⟨plain t.unknownOptionId (toSpellingArray [dashChar, c]) 0, ?_, Or.inr ⟨?_, rfl⟩, rfl⟩
    · simp [splitUnknown, hc]
    · intro i hi
      by_contra hn
      rw [Bool.not_eq_false] at hn
      have hmem := mem_searchFrom_of_names ht hc (d :: rest) hi hn
      rw [hnone i hmem] at hn
      exact Bool.false_ne_true hn
  · have hkind := (ht.flags i (hsub hi)).1
    refine ⟨unalias t i ⟨i.id, toSpellingArray [dashChar, c], [], 0, none, none⟩, ?_,
      Or.inl ⟨i, hsub hi, hn, ?_⟩, ?_⟩
    · simp [accept, hkind, hd]
    · simp
    · simp

/-! The last letter. -/

lemma groupedSearch_last (ht : ShortFlags t) (c : UInt8) (is : List Info)
    (his : is ⊆ t.searchable) :
    (∃ i ∈ is, i.names t c = true ∧
      groupedSearch t [[dashChar, c]] [dashChar, c] 0 is none =
        ((some (some (unalias t i ⟨i.id, [dashChar, c], [], 0, none, none⟩), 1)), none)) ∨
      (∀ i ∈ is, i.names t c = false) ∧
        groupedSearch t [[dashChar, c]] [dashChar, c] 0 is none = (none, none) := by
  induction is with
  | nil => exact Or.inr ⟨by simp, rfl⟩
  | cons i is ih =>
    have hi : i ∈ t.searchable := his List.mem_cons_self
    rw [groupedSearch, matchOpt_group ht hi]
    cases hn : i.names t c with
    | false =>
      rcases ih fun j hj => his (List.mem_cons_of_mem _ hj) with ⟨j, hj, hnj, hsearch⟩
        | ⟨hnone, hsearch⟩
      · exact Or.inl ⟨j, List.mem_cons_of_mem _ hj, hnj, by simpa using hsearch⟩
      · refine Or.inr ⟨?_, by simpa using hsearch⟩
        intro j hj
        cases hj with
        | head => exact hn
        | tail _ hj => exact hnone j hj
    | true =>
      have haccept : accept t i [[dashChar, c]] [dashChar, c] false 0 =
          (some (unalias t i ⟨i.id, [dashChar, c], [], 0, none, none⟩), 1) := by
        rw [accept_ungrouped, acceptInternal_flag (ht.flags i hi).1, if_neg (by simp)]
        rfl
      exact Or.inl ⟨i, List.mem_cons_self, hn, by simp [haccept]⟩

lemma parseOneArgGrouped_last (ht : ShortFlags t) {c : UInt8} (hc : c ≠ dashChar) :
    (∃ i ∈ t.searchable, i.names t c = true ∧
      parseOneArgGrouped t [[dashChar, c]] 0 =
        .ok ([[dashChar, c]], some (unalias t i ⟨i.id, [dashChar, c], [], 0, none, none⟩), 1)) ∨
      (∀ i ∈ t.searchable, i.names t c = false) ∧
        parseOneArgGrouped t [[dashChar, c]] 0 =
          .ok ([dash], some (plain t.unknownOptionId (toSpellingArray [dashChar, c]) 0), 0) := by
  have hsub := searchFrom_subset t [dashChar, c]
  have hstr : [[dashChar, c]].getD 0 [] = [dashChar, c] := rfl
  rw [parseOneArgGrouped, hstr, not_isInput_group ht, if_neg Bool.false_ne_true]
  rcases groupedSearch_last ht c _ hsub with ⟨i, hi, hn, hsearch⟩ | ⟨hnone, hsearch⟩
  · rw [hsearch]
    exact Or.inl ⟨i, hsub hi, hn, rfl⟩
  · rw [hsearch]
    have hset : splitUnknown t [[dashChar, c]] 0 =
        .ok ([dash], some (plain t.unknownOptionId (toSpellingArray [dashChar, c]) 0), 0) := by
      simp [splitUnknown, hc]
      rfl
    refine Or.inr ⟨?_, hset⟩
    intro i hi
    by_contra hn
    rw [Bool.not_eq_false] at hn
    have hmem := mem_searchFrom_of_names ht hc [] hi hn
    rw [hnone i hmem] at hn
    exact Bool.false_ne_true hn

/-! The loop. -/

lemma parseLoop_step {excludeOption : Info → Bool} (ht : ShortFlags t) (fuel : ℕ) {arg arg' : Str}
    {a : ParsedArgument} {index : ℕ} (hne : arg ≠ []) (hdd : arg ≠ dashDash)
    (h : parseOneArgGrouped t [arg] 0 = .ok ([arg'], some a, index)) :
    parseLoop t excludeOption (fuel + 1) [arg] 0 =
      (parseLoop t excludeOption fuel [arg'] index).map (ParseResult.emit a) := by
  have hstr : [arg].getD 0 [] = arg := rfl
  rw [parseLoop, hstr, if_neg (by simp), if_neg hne, if_neg (fun h => hdd h.2),
    if_pos ht.grouped, h]

lemma parseLoop_end (excludeOption : Info → Bool) (fuel : ℕ) (arg : Str) :
    parseLoop t excludeOption (fuel + 1) [arg] 1 = .ok {} := by
  rw [parseLoop, if_pos (by simp)]

lemma parseOneArgGrouped_dash : parseOneArgGrouped t [dash] 0 =
    .ok ([dash], some (plain t.inputOptionId dash 0), 1) := by
  have hin : isInput t dash = true := by simp [isInput]
  have hstr : [dash].getD 0 [] = dash := rfl
  rw [parseOneArgGrouped, hstr, if_pos hin]

lemma emits_letters (ht : ShortFlags t) (excludeOption : Info → Bool) (letters : Str) (fuel : ℕ)
    (hne : letters ≠ []) (hletters : ∀ c ∈ letters, c ≠ dashChar ∧ c ≠ equalsSign)
    (hfuel : letters.length + 2 ≤ fuel) :
    ∃ args, parseLoop t excludeOption fuel [dashChar :: letters] 0 = .ok { args } ∧
      Emits t letters args := by
  induction letters generalizing fuel with
  | nil => exact absurd rfl hne
  | cons c rest ih =>
    obtain ⟨fuel, rfl⟩ : ∃ k, fuel = k + 3 :=
      ⟨fuel - 3, by simp only [List.length_cons] at hfuel; omega⟩
    have hc := (hletters c List.mem_cons_self).1
    have hdd : dashChar :: c :: rest ≠ dashDash := by
      intro he
      exact hc (List.cons.inj (List.cons.inj he).2).1
    cases rest with
    | nil =>
      rcases parseOneArgGrouped_last ht hc with ⟨i, hi, hn, hparse⟩ | ⟨hnone, hparse⟩
      · rw [parseLoop_step ht _ (List.cons_ne_nil _ _) hdd hparse, parseLoop_end]
        exact ⟨_, rfl, .lastFlag hi hn (by simp) (by simp)⟩
      · rw [parseLoop_step ht _ (List.cons_ne_nil _ _) hdd hparse,
          parseLoop_step ht _ (by decide) (by decide) parseOneArgGrouped_dash, parseLoop_end]
        exact ⟨_, rfl, .lastUnknown hnone⟩
    | cons d rest =>
      have hd := (hletters d (List.mem_cons_of_mem _ List.mem_cons_self)).2
      obtain ⟨a, hparse, hmeans, hspelling⟩ := parseOneArgGrouped_inner ht hc hd rest
      have hrest : ∀ e ∈ d :: rest, e ≠ dashChar ∧ e ≠ equalsSign :=
        fun e he => hletters e (List.mem_cons_of_mem _ he)
      obtain ⟨args, hloop, hemits⟩ := ih (fuel + 2) (List.cons_ne_nil _ _) hrest
        (by simp only [List.length_cons] at hfuel ⊢; omega)
      rw [parseLoop_step ht _ (List.cons_ne_nil _ _) hdd hparse, hloop]
      exact ⟨_, rfl, .more (List.cons_ne_nil _ _) hmeans hspelling hemits⟩

lemma toSpellingArray_letter (c : UInt8) : toSpellingArray [dashChar, c] = [dashChar, c] ↔
    c ≠ 0 := by
  by_cases hc : c = 0
  · subst hc
    decide
  · simp [toSpellingArray, dashChar, hc]

lemma Emits.readsSeparately_iff {letters : Str} {args : List ParsedArgument}
    (h : Emits t letters args) :
    readsSeparately t letters args ↔
      (∃ c ∈ letters.getLast?, ∃ i ∈ t.searchable, i.names t c = true) ∧
        ∀ c ∈ letters.dropLast, c ≠ 0 := by
  induction h with
  | lastFlag hi hn hid hspelling =>
    simp only [readsSeparately, List.forall₂_cons, List.forall₂_nil_left_iff, and_true]
    refine ⟨fun _ => ⟨⟨_, rfl, _, hi, hn⟩, by simp⟩, fun _ => ⟨hspelling, Or.inl ⟨_, hi, hn, hid⟩⟩⟩
  | @lastUnknown c a b hnone =>
    constructor
    · intro hreads
      cases hreads with
      | cons _ htail => cases htail
    · rintro ⟨⟨d, hd, i, hi, hn⟩, -⟩
      obtain rfl : c = d := by simpa using hd
      rw [hnone i hi] at hn
      exact absurd hn Bool.false_ne_true
  | @more c a rest args hrest hmeans hspelling hemits ih =>
    have hlast : (c :: rest).getLast? = rest.getLast? := by
      rw [List.getLast?_cons, List.getLast?_eq_some_getLast hrest]
      rfl
    have hdropLast : (c :: rest).dropLast = c :: rest.dropLast := List.dropLast_cons_of_ne_nil hrest
    rw [hlast, hdropLast, List.forall_mem_cons, readsSeparately, List.forall₂_cons, hspelling,
      toSpellingArray_letter]
    have hiff : List.Forall₂ (fun c a => a.spelling = [dashChar, c] ∧ meansLetter t c a.optionId)
      rest args ↔ _ := ih
    rw [hiff]
    tauto

variable (t)

theorem grouped_reads_separately_iff (ht : ShortFlags t) (excludeOption : Info → Bool)
    (letters : Str)
    (hne : letters ≠ []) (hletters : ∀ c ∈ letters, c ≠ dashChar ∧ c ≠ equalsSign) :
    (∃ r, internalParseArgs t excludeOption [dashChar :: letters] = .ok r ∧
      readsSeparately t letters r.args) ↔
      (∃ c ∈ letters.getLast?, ∃ i ∈ t.searchable, i.names t c = true) ∧
        ∀ c ∈ letters.dropLast, c ≠ 0 := by
  obtain ⟨args, hloop, hemits⟩ :=
    emits_letters ht excludeOption letters (parseFuel [dashChar :: letters]) hne hletters
    (by simp [parseFuel])
  rw [← hemits.readsSeparately_iff, internalParseArgs, hloop]
  constructor
  · rintro ⟨r, hr, hreads⟩
    obtain rfl := Except.ok.inj hr
    exact hreads
  · intro hreads
    exact ⟨_, rfl, hreads⟩

def shortFlagTable : OptTable where
  optionInfos := [.input 1, .unknown 2, .unaliasedOne [dash] (lit "-a") 3 .flag 0,
    .unaliasedOne [dash] (lit "-b") 4 .flag 0]
  groupedShortOptions := true

theorem grouped_reads_separately_known_last :
    (∃ r, internalParseArgs shortFlagTable (fun _ => false) [dashChar :: lit "axb"] = .ok r ∧
        readsSeparately shortFlagTable (lit "axb") r.args) ↔
      (∃ c ∈ (lit "axb").getLast?,
        ∃ i ∈ shortFlagTable.searchable, i.names shortFlagTable c = true) ∧
        ∀ c ∈ (lit "axb").dropLast, c ≠ 0 :=
  grouped_reads_separately_iff shortFlagTable ⟨rfl, rfl, by decide, by decide, by decide⟩
    (fun _ => false)
    (lit "axb") (by decide) (by decide)

theorem grouped_unknown_last_adds_input :
    ¬ ∃ r, internalParseArgs shortFlagTable (fun _ => false) [dashChar :: lit "ax"] = .ok r ∧
      readsSeparately shortFlagTable (lit "ax") r.args := by
  have hrun : internalParseArgs shortFlagTable (fun _ => false) [dashChar :: lit "ax"] =
      .ok { args := [plain 3 (lit "-a") 0, plain 2 (lit "-x") 0, plain 1 dash 0] } := by
    decide
  rintro ⟨r, hr, hreads⟩
  rw [hrun] at hr
  obtain rfl := Except.ok.inj hr
  have hlength : 2 = 3 := hreads.length_eq
  omega

end Catter.Opt
