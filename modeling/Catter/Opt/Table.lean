import Catter.Library.PartitionPoint
import Catter.Text

/-! Option tables: the entries, what the constructor of `OptTable` derives from
them, and how one entry matches the beginning of an argument. -/

namespace Catter.Opt

open Text Library.PartitionPoint

inductive OptionClass
  | group | input | unknown | flag | joined | values | separate
  | remainingArgs | remainingArgsJoined
  | commaJoined | multiArg | joinedOrSeparate | joinedAndSeparate
deriving DecidableEq

structure Info where
  prefixes : List Str
  prefixedName : Str
  id : ℕ
  kind : OptionClass
  aliasId : ℕ := 0
  aliasArgs : Option (List Str) := none
  flags : ℕ := 0
  visibility : ℕ := 1
  param : ℕ := 0
  -- `name()` cuts the first prefix off with `substr`, which throws past the end.
  name_in_range : (prefixes.headD []).length ≤ prefixedName.length := by decide
deriving DecidableEq

def Info.unaliasedOne (prefixes : List Str) (prefixedName : Str) (id : ℕ) (kind : OptionClass)
    (param : ℕ)
    (h : (prefixes.headD []).length ≤ prefixedName.length := by decide) : Info :=
  { prefixes, prefixedName, id, kind, param, name_in_range := h }

def Info.unknown (id : ℕ) : Info := .unaliasedOne [] (lit "<unknown>") id .unknown 0

def Info.input (id : ℕ) : Info := .unaliasedOne [] (lit "<input>") id .input 0

def Info.name (i : Info) : Str := i.prefixedName.drop (i.prefixes.headD []).length

-- The arguments of the constructor and of the setters. The constructor of `Option`
-- asserts that an alias names an option which is not an alias itself.
structure OptTable where
  optionInfos : List Info
  ignoreCase : Bool := false
  givenPrefixes : List Str := []
  groupedShortOptions : Bool := false
  dashDashParsing : Bool := false
  dashDashAsSinglePack : Bool := false
  tablegenMode : Bool := false
  alias_ok : ∀ i ∈ optionInfos, i.aliasId = 0 ∨
    (optionInfos[i.aliasId - 1]?).any (fun als => als.aliasId == 0) = true := by decide

structure SpecialOptions where
  firstSearchableIndex : ℕ := 0
  inputOptionId : ℕ := 0
  unknownOptionId : ℕ := 0

-- The first loop of the constructor, from position `pos` on.
def findSpecial (special : SpecialOptions) (pos : ℕ) : List Info → SpecialOptions
  | [] => special
  | i :: is =>
    if i.kind = .input then findSpecial { special with inputOptionId := i.id } (pos + 1) is
    else if i.kind = .unknown then findSpecial { special with unknownOptionId := i.id } (pos + 1) is
    else if i.kind ≠ .group then { special with firstSearchableIndex := pos }
    else findSpecial special (pos + 1) is

namespace OptTable

variable (t : OptTable)

def special : SpecialOptions := findSpecial {} 0 t.optionInfos

def inputOptionId : ℕ := t.special.inputOptionId

def unknownOptionId : ℕ := t.special.unknownOptionId

def searchable : List Info := t.optionInfos.drop t.special.firstSearchableIndex

-- The constructor sorts this union; nothing depends on the order.
def prefixesUnion : List Str :=
  if t.givenPrefixes = [] then (t.searchable.flatMap Info.prefixes).dedup else t.givenPrefixes

def prefixChars : List UInt8 := t.prefixesUnion.flatten.dedup

-- `none` is the null option, of id 0 or of an id that no entry has.
def option (id : ℕ) : Option Info := if id = 0 then none else t.optionInfos[id - 1]?

end OptTable

def dash : Str := lit "-"

def dashDash : Str := lit "--"

def isInput (t : OptTable) (arg : Str) : Bool :=
  arg = dash || !t.prefixesUnion.any fun pfx => pfx.isPrefixOf arg

/-! Comparison of texts. -/

def safeTolower (c : UInt8) : UInt8 := if 65 ≤ c ∧ c ≤ 90 then c + 32 else c

def startsWithInsensitive (text pfx : Str) : Bool :=
  (pfx.map safeTolower).isPrefixOf (text.map safeTolower)

-- `char` is signed on the machines that catter is built for.
def compareInsensitive : Str → Str → Ordering
  | [], [] => .eq
  | [], _ :: _ => .lt
  | _ :: _, [] => .gt
  | a :: as, b :: bs =>
    if safeTolower a = safeTolower b then compareInsensitive as bs
    else if (safeTolower a).toInt8 < (safeTolower b).toInt8 then .lt
    else .gt

def compareOctets : Str → Str → Ordering
  | [], [] => .eq
  | [], _ :: _ => .lt
  | _ :: _, [] => .gt
  | a :: as, b :: bs => if a = b then compareOctets as bs else if a < b then .lt else .gt

def strCmpOptName (a b : Str) (fallbackCaseSensitive : Bool) : Ordering :=
  let minSz := min a.length b.length
  match compareInsensitive (a.take minSz) (b.take minSz) with
  | .lt => .lt
  | .gt => .gt
  | .eq =>
    if a.length = b.length then if fallbackCaseSensitive then compareOctets a b else .eq
    else if a.length = minSz then .gt
    else .lt

def optNameLess (i : Info) (name : Str) : Bool := strCmpOptName i.name name false = .lt

def ltrimAllOf (str : Str) (chars : List UInt8) : Str := str.dropWhile fun c => chars.contains c

/-! Matching: the matched size, 0 meaning no match. -/

def nameMatches (ignoreCase : Bool) (rest name : Str) : Bool :=
  if ignoreCase then startsWithInsensitive rest name else name.isPrefixOf rest

def matchOpt (i : Info) (str : Str) (ignoreCase : Bool) : ℕ :=
  match i.prefixes.find? fun pfx =>
    pfx.isPrefixOf str && nameMatches ignoreCase (str.drop pfx.length) i.name with
  | some pfx => pfx.length + i.name.length
  | none => 0

def OptTable.searchFrom (t : OptTable) (str : Str) : List Info :=
  if t.tablegenMode then
    t.searchable.drop (lowerBound
      (fun i => optNameLess i (ltrimAllOf str t.prefixChars)) t.searchable)
  else t.searchable

lemma searchFrom_subset (t : OptTable) (str : Str) : t.searchFrom str ⊆ t.searchable := by
  rw [OptTable.searchFrom]
  split_ifs
  · exact List.drop_subset _ _
  · exact List.Subset.refl _

lemma searchable_subset (t : OptTable) : t.searchable ⊆ t.optionInfos := List.drop_subset _ _

lemma nameMatches_length {ignoreCase : Bool} {rest name : Str}
    (h : nameMatches ignoreCase rest name = true) :
    name.length ≤ rest.length := by
  cases ignoreCase with
  | false => exact (List.isPrefixOf_iff_prefix.mp h).length_le
  | true => simpa using (List.isPrefixOf_iff_prefix.mp h).length_le

lemma matchOpt_pos {i : Info} {str : Str} {ignoreCase : Bool} (h : matchOpt i str ignoreCase ≠ 0) :
    ∃ pfx ∈ i.prefixes, pfx <+: str ∧ nameMatches ignoreCase (str.drop pfx.length) i.name = true ∧
      matchOpt i str ignoreCase = pfx.length + i.name.length := by
  cases hf : i.prefixes.find? fun pfx =>
      pfx.isPrefixOf str && nameMatches ignoreCase (str.drop pfx.length) i.name with
  | none => simp [matchOpt, hf] at h
  | some pfx =>
    have hp := List.find?_some hf
    simp only [Bool.and_eq_true, List.isPrefixOf_iff_prefix] at hp
    exact ⟨pfx, List.mem_of_find?_eq_some hf, hp.1, hp.2, by simp [matchOpt, hf]⟩

lemma matchOpt_le (i : Info) (str : Str) (ignoreCase : Bool) :
    matchOpt i str ignoreCase ≤ str.length := by
  by_cases h : matchOpt i str ignoreCase = 0
  · omega
  · obtain ⟨pfx, -, hp, hn, he⟩ := matchOpt_pos h
    have hlen := nameMatches_length hn
    have hple := hp.length_le
    simp only [List.length_drop] at hlen
    omega

def matchesWith (i : Info) (ignoreCase : Bool) (str pfx : Str) : Bool :=
  pfx.isPrefixOf str && nameMatches ignoreCase (str.drop pfx.length) i.name

lemma matchesWith_take (i : Info) (ignoreCase : Bool) (str pfx : Str) (k : ℕ) :
    matchesWith i ignoreCase (str.take k) pfx = true ↔
      matchesWith i ignoreCase str pfx = true ∧ pfx.length + i.name.length ≤ k := by
  have hname : pfx.length ≤ k →
      (nameMatches ignoreCase ((str.take k).drop pfx.length) i.name = true ↔
        nameMatches ignoreCase (str.drop pfx.length) i.name = true ∧
          pfx.length + i.name.length ≤ k) := by
    intro hk
    have harith : i.name.length ≤ k - pfx.length ↔ pfx.length + i.name.length ≤ k := by omega
    rw [List.drop_take]
    cases ignoreCase with
    | false =>
      simp only [nameMatches, Bool.false_eq_true, if_false, List.isPrefixOf_iff_prefix,
        List.prefix_take_iff,
        harith]
    | true =>
      simp only [nameMatches, if_true, startsWithInsensitive, List.isPrefixOf_iff_prefix,
        List.map_take,
        List.prefix_take_iff, List.length_map, harith]
  simp only [matchesWith, Bool.and_eq_true, List.isPrefixOf_iff_prefix, List.prefix_take_iff]
  constructor
  · rintro ⟨⟨hp, hk⟩, hn⟩
    obtain ⟨hn, hle⟩ := (hname hk).mp hn
    exact ⟨⟨hp, hn⟩, hle⟩
  · rintro ⟨⟨hp, hn⟩, hle⟩
    have hk : pfx.length ≤ k := by omega
    exact ⟨⟨hp, hk⟩, (hname hk).mpr ⟨hn, hle⟩⟩

lemma matchOpt_eq_elim (i : Info) (str : Str) (ignoreCase : Bool) :
    matchOpt i str ignoreCase =
      (i.prefixes.find? (matchesWith i ignoreCase str)).elim 0 fun pfx =>
        pfx.length + i.name.length := by
  have hmatches :
    (fun pfx : Str => pfx.isPrefixOf str && nameMatches ignoreCase (str.drop pfx.length) i.name) =
      matchesWith i ignoreCase str := rfl
  rw [matchOpt, hmatches]
  cases i.prefixes.find? (matchesWith i ignoreCase str) with
  | none => rfl
  | some pfx => rfl

lemma matchOpt_eq_of_find {i : Info} {str pfx : Str} {ignoreCase : Bool}
    (h : i.prefixes.find? (matchesWith i ignoreCase str) = some pfx) :
    matchOpt i str ignoreCase = pfx.length + i.name.length := by
  rw [matchOpt_eq_elim, h, Option.elim_some]

lemma matchOpt_extend {i : Info} {str str' : Str} {ignoreCase : Bool}
    (h : matchOpt i str ignoreCase ≠ 0)
    (hsame : str'.take (matchOpt i str ignoreCase) = str.take (matchOpt i str ignoreCase)) :
    matchOpt i str ignoreCase ≤ matchOpt i str' ignoreCase := by
  cases hf : i.prefixes.find? (matchesWith i ignoreCase str) with
  | none =>
    rw [matchOpt_eq_elim, hf] at h
    exact absurd rfl h
  | some pfx =>
    have hsize := matchOpt_eq_of_find hf
    rw [hsize] at hsame ⊢
    have hshort : ∀ q : Str, q.length + i.name.length ≤ pfx.length + i.name.length →
        (matchesWith i ignoreCase str' q = true ↔ matchesWith i ignoreCase str q = true) := by
      intro q hq
      have hleft := matchesWith_take i ignoreCase str' q (pfx.length + i.name.length)
      have hright := matchesWith_take i ignoreCase str q (pfx.length + i.name.length)
      rw [hsame] at hleft
      tauto
    obtain ⟨hpfx, before, after, hsplit, hbefore⟩ := List.find?_eq_some_iff_append.mp hf
    have hagain : matchesWith i ignoreCase str' pfx = true := (hshort pfx le_rfl).mpr hpfx
    cases hb : before.find? (matchesWith i ignoreCase str') with
    | none =>
      have hf' : i.prefixes.find? (matchesWith i ignoreCase str') = some pfx := by
        rw [hsplit, List.find?_append, hb, List.find?_cons_of_pos hagain]
        rfl
      exact (matchOpt_eq_of_find hf').ge
    | some q =>
      have hf' : i.prefixes.find? (matchesWith i ignoreCase str') = some q := by
        rw [hsplit, List.find?_append, hb]
        rfl
      rw [matchOpt_eq_of_find hf']
      by_contra hlt
      have hq := (hshort q (by omega)).mp (List.find?_some hb)
      have hnot := hbefore q (List.mem_of_find?_eq_some hb)
      rw [hq] at hnot
      exact absurd hnot (by decide)

end Catter.Opt
