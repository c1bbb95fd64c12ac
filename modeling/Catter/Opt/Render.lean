import Catter.Opt.DashDash
import Catter.Opt.Partition

/-! Writing a parsed argument for an executable and reading it back with the same table. -/

namespace Catter.Opt

open Text

variable (t : OptTable)

inductive RenderStyleKind
  | renderCommaJoinedStyle | renderJoinedStyle | renderSeparateStyle | renderValuesStyle
deriving DecidableEq

def renderJoined : ℕ := 1 <<< 2

def renderSeparate : ℕ := 1 <<< 3

def Info.renderStyle (i : Info) : RenderStyleKind :=
  if i.flags &&& renderJoined ≠ 0 then .renderJoinedStyle
  else if i.flags &&& renderSeparate ≠ 0 then .renderSeparateStyle
  else match i.kind with
    | .group | .input | .unknown => .renderValuesStyle
    | .joined | .joinedAndSeparate => .renderJoinedStyle
    | .commaJoined => .renderCommaJoinedStyle
    | .flag | .values | .separate | .multiArg | .joinedOrSeparate
    | .remainingArgs | .remainingArgsJoined =>
      .renderSeparateStyle

def space : UInt8 := 32

-- The joined style asserts that there is a value.
def toArgStr (a : ParsedArgument) : RenderStyleKind → Str
  | .renderCommaJoinedStyle => a.spelling ++ a.values.flatMap (comma :: ·)
  | .renderJoinedStyle => a.spelling ++ a.values.headD []
  | .renderSeparateStyle => a.spelling ++ a.values.flatMap (space :: ·)
  | .renderValuesStyle => a.spelling

def split2vec (str : Str) : List Str := if str = [] then [] else str.splitOn space

def readsBack (excludeOption : Info → Bool) (i : Info) (a : ParsedArgument) : Prop :=
  ∃ r b, internalParseArgs t excludeOption (split2vec (toArgStr a i.renderStyle)) = .ok r ∧
    r.args = [b] ∧
    b.optionId = a.optionId ∧ b.values = a.values

structure Renderable : Prop where
  ids : t.optionInfos.map Info.id = List.range' 1 t.optionInfos.length
  ungrouped : t.groupedShortOptions = false
  no_override : ∀ i ∈ t.optionInfos, i.flags &&& renderJoined = 0 ∧ i.flags &&& renderSeparate = 0
  prefix_free : ∀ i ∈ t.searchable, ∀ j ∈ t.searchable, i ≠ j →
    ∀ p ∈ i.prefixes, ∀ q ∈ j.prefixes, ¬ p ++ i.name <+: q ++ j.name

structure ParsedArgument.Separable (a : ParsedArgument) : Prop where
  spelling_ne : a.spelling ≠ []
  spelling_clean : space ∉ a.spelling
  values_ne : ∀ v ∈ a.values, v ≠ []
  values_clean : ∀ v ∈ a.values, space ∉ v

def firstPiece (i : Info) (a : ParsedArgument) : Str :=
  match i.kind with
  | .commaJoined => a.spelling ++ a.values.flatMap (comma :: ·)
  | .joined | .joinedAndSeparate => a.spelling ++ a.values.headD []
  | _ => a.spelling

def meets (excludeOption : Info → Bool) (i : Info) (piece : Str) : Prop :=
  (t.searchFrom piece).find? (fun j => (t.candidate excludeOption piece j).isSome) = some i

-- For the argument `a` that the option `i` emitted from `text`.
def keepsMeaning (excludeOption : Info → Bool) (i : Info) (text : Str)
    (a : ParsedArgument) : Prop :=
  i.kind ≠ .joinedAndSeparate ∧ (i.kind = .input → a.values = []) ∧
    (firstPiece i a ≠ text →
      isInput t (firstPiece i a) = false ∧
        ¬ (t.dashDashParsing = true ∧ firstPiece i a = dashDash) ∧
      matchOpt i (firstPiece i a) t.ignoreCase ≤ a.spelling.length + 1 ∧
      (t.ignoreCase = true ∨ t.tablegenMode = true → meets t excludeOption i (firstPiece i a)))

variable {t}

/-! What is written, and how it falls apart at the spaces. -/

def restPieces (i : Info) (a : ParsedArgument) : List Str :=
  match i.renderStyle with
  | .renderSeparateStyle => a.values
  | _ => []

lemma renderStyle_of_no_override {i : Info}
    (h : i.flags &&& renderJoined = 0 ∧ i.flags &&& renderSeparate = 0) :
    i.renderStyle = match i.kind with
      | .group | .input | .unknown => .renderValuesStyle
      | .joined | .joinedAndSeparate => .renderJoinedStyle
      | .commaJoined => .renderCommaJoinedStyle
      | .flag | .values | .separate | .multiArg | .joinedOrSeparate
    | .remainingArgs | .remainingArgsJoined =>
        .renderSeparateStyle := by
  rw [Info.renderStyle, if_neg (by simp [h.1]), if_neg (by simp [h.2])]

lemma split2vec_single {str : Str} (hne : str ≠ []) (hclean : space ∉ str) :
    split2vec str = [str] := by
  rw [split2vec, if_neg hne, List.splitOn_eq_singleton hclean]

lemma space_not_mem_comma {vs : List Str} (h : ∀ v ∈ vs, space ∉ v) :
    space ∉ vs.flatMap (comma :: ·) := by
  intro hmem
  obtain ⟨v, hv, hin⟩ := List.mem_flatMap.mp hmem
  rcases List.mem_cons.mp hin with hin | hin
  · exact absurd hin (by decide)
  · exact h v hv hin

lemma split2vec_toArgStr {i : Info}
    (hi : i.flags &&& renderJoined = 0 ∧ i.flags &&& renderSeparate = 0)
    {a : ParsedArgument} (ha : a.Separable) :
    split2vec (toArgStr a i.renderStyle) = firstPiece i a :: restPieces i a := by
  have hne : ∀ s : Str, a.spelling ++ s ≠ [] :=
    fun s h => ha.spelling_ne (List.append_eq_nil_iff.mp h).1
  have hclean : ∀ s : Str, space ∉ s → space ∉ a.spelling ++ s := by
    intro s hs h
    rcases List.mem_append.mp h with h | h
    · exact ha.spelling_clean h
    · exact hs h
  have hhead : space ∉ a.values.headD [] := by
    cases hv : a.values with
    | nil => exact List.not_mem_nil
    | cons v vs => exact ha.values_clean v (by simp [hv])
  have hstyle := renderStyle_of_no_override hi
  cases hk : i.kind with
  | group | input | unknown =>
    rw [hk] at hstyle
    rw [restPieces, firstPiece, hstyle, hk]
    exact split2vec_single ha.spelling_ne ha.spelling_clean
  | joined | joinedAndSeparate =>
    rw [hk] at hstyle
    rw [restPieces, firstPiece, hstyle, hk]
    exact split2vec_single (hne _) (hclean _ hhead)
  | commaJoined =>
    rw [hk] at hstyle
    rw [restPieces, firstPiece, hstyle, hk]
    exact split2vec_single (hne _) (hclean _ (space_not_mem_comma ha.values_clean))
  | flag | values | separate | multiArg | joinedOrSeparate | remainingArgs | remainingArgsJoined =>
    rw [hk] at hstyle
    rw [restPieces, firstPiece, hstyle, hk, toArgStr, split2vec, if_neg (hne _)]
    exact splitOn_append_flatMap ha.spelling_clean ha.values_clean

/-! Which option takes the first piece. -/

lemma taking_eq (excludeOption : Info → Bool) (str : Str) :
    t.taking excludeOption str =
      ((t.searchFrom str).find? fun j => (t.candidate excludeOption str j).isSome).map fun j =>
        (j, matchOpt j str t.ignoreCase) := by
  rw [OptTable.taking]
  induction t.searchFrom str with
  | nil => rfl
  | cons j js ih =>
    rw [List.findSome?_cons, List.find?_cons]
    cases hc : t.candidate excludeOption str j with
    | none => simpa [hc] using ih
    | some p =>
      simp only [OptTable.candidate] at hc
      split_ifs at hc
      obtain rfl := Option.some.inj hc
      simp

lemma meets_iff (excludeOption : Info → Bool) (i : Info) (str : Str) :
    meets t excludeOption i str ↔ t.taking excludeOption str =
      some (i, matchOpt i str t.ignoreCase) := by
  rw [meets, taking_eq, Option.map_eq_some_iff]
  constructor
  · intro h
    exact ⟨i, h, rfl⟩
  · rintro ⟨j, hj, he⟩
    obtain rfl := (Prod.mk.inj he).1
    exact hj

lemma match_unique (ht : Renderable t) (hic : t.ignoreCase = false) {i j : Info}
    (hi : i ∈ t.searchable)
    (hj : j ∈ t.searchable) {str : Str} (hmi : matchOpt i str t.ignoreCase ≠ 0)
    (hmj : matchOpt j str t.ignoreCase ≠ 0) : i = j := by
  have hspells : ∀ k : Info, matchOpt k str t.ignoreCase ≠ 0 →
      ∃ p ∈ k.prefixes, p ++ k.name <+: str := by
    intro k hk
    obtain ⟨p, hp, ⟨rest, rfl⟩, hn, -⟩ := matchOpt_pos hk
    rw [hic, List.drop_left] at hn
    exact ⟨p, hp, (List.prefix_append_right_inj p).mpr (List.isPrefixOf_iff_prefix.mp hn)⟩
  obtain ⟨p, hp, hpi⟩ := hspells i hmi
  obtain ⟨q, hq, hqj⟩ := hspells j hmj
  by_contra hne
  rcases List.prefix_or_prefix_of_prefix hpi hqj with h | h
  · exact ht.prefix_free i hi j hj hne p hp q hq h
  · exact ht.prefix_free j hj i hi (Ne.symm hne) q hq p hp h

lemma meets_of_linear (ht : Renderable t) (hic : t.ignoreCase = false)
    (hmode : t.tablegenMode = false)
    {excludeOption : Info → Bool} {i : Info} (hi : i ∈ t.searchable) {str : Str}
    (hc : t.candidate excludeOption str i ≠ none) : meets t excludeOption i str := by
  have hmatch : ∀ j, t.candidate excludeOption str j ≠ none → matchOpt j str t.ignoreCase ≠ 0 := by
    intro j hj hzero
    exact hj (if_pos (Or.inl hzero))
  have hfrom : t.searchFrom str = t.searchable := by
    rw [OptTable.searchFrom, hmode]
    rfl
  rw [meets, hfrom]
  cases hf : t.searchable.find? fun j => (t.candidate excludeOption str j).isSome with
  | none =>
    have hnone := List.find?_eq_none.mp hf i hi
    exact absurd (Option.ne_none_iff_isSome.mp hc) hnone
  | some j =>
    have hsome : (t.candidate excludeOption str j).isSome = true := by
      simpa using List.find?_some hf
    have hj := Option.ne_none_iff_isSome.mpr hsome
    rw [match_unique ht hic hi (List.mem_of_find?_eq_some hf) (hmatch i hc) (hmatch j hj)]

/-! Identifiers: an option in the searched part is neither the input nor the unknown entry. -/

lemma findSpecial_ids (special : SpecialOptions) (pos : ℕ) (infos : List Info) :
    ((findSpecial special pos infos).inputOptionId = special.inputOptionId ∨
        ∃ j ∈ infos, j.kind = .input ∧ j.id = (findSpecial special pos infos).inputOptionId) ∧
      ((findSpecial special pos infos).unknownOptionId = special.unknownOptionId ∨
        ∃ j ∈ infos, j.kind = .unknown ∧
          j.id = (findSpecial special pos infos).unknownOptionId) := by
  induction infos generalizing special pos with
  | nil => exact ⟨Or.inl rfl, Or.inl rfl⟩
  | cons i is ih =>
    have hlater : ∀ P : Info → Prop, (∃ j ∈ is, P j) → ∃ j ∈ i :: is, P j := by
      rintro P ⟨j, hj, hp⟩
      exact ⟨j, List.mem_cons_of_mem _ hj, hp⟩
    rw [findSpecial]
    split_ifs with hin hun hgroup
    · obtain ⟨hi, hu⟩ := ih { special with inputOptionId := i.id } (pos + 1)
      refine ⟨Or.inr ?_, hu.imp_right (hlater _)⟩
      rcases hi with hi | hi
      · exact ⟨i, List.mem_cons_self, hin, hi.symm⟩
      · exact hlater _ hi
    · obtain ⟨hi, hu⟩ := ih { special with unknownOptionId := i.id } (pos + 1)
      refine ⟨hi.imp_right (hlater _), Or.inr ?_⟩
      rcases hu with hu | hu
      · exact ⟨i, List.mem_cons_self, hun, hu.symm⟩
      · exact hlater _ hu
    · exact ⟨Or.inl rfl, Or.inl rfl⟩
    · obtain ⟨hi, hu⟩ := ih special (pos + 1)
      exact ⟨hi.imp_right (hlater _), hu.imp_right (hlater _)⟩

lemma option_id {id : ℕ} {i : Info}
    (hids : t.optionInfos.map Info.id = List.range' 1 t.optionInfos.length)
    (h : t.option id = some i) : i.id = id ∧ i ∈ t.optionInfos := by
  rw [OptTable.option] at h
  split_ifs at h with hid
  obtain ⟨hlt, rfl⟩ := List.getElem?_eq_some_iff.mp h
  have hget : (t.optionInfos.map Info.id)[id - 1]? = some (1 + (id - 1)) := by
    rw [hids, List.getElem?_range' hlt, one_mul]
  rw [List.getElem?_map, List.getElem?_eq_getElem hlt, Option.map_some, Option.some.injEq] at hget
  exact ⟨by omega, List.getElem_mem hlt⟩

lemma option_inj (hids : t.optionInfos.map Info.id = List.range' 1 t.optionInfos.length)
    {i j : Info}
    (hi : i ∈ t.optionInfos) (hj : j ∈ t.optionInfos) (h : i.id = j.id) : i = j := by
  have heq := option_of_mem t hids hi
  rw [h, option_of_mem t hids hj] at heq
  exact (Option.some.inj heq).symm

lemma id_ne_special (hids : t.optionInfos.map Info.id = List.range' 1 t.optionInfos.length)
    {i : Info}
    (hi : i ∈ t.optionInfos) :
    (i.kind ≠ .input → i.id ≠ t.inputOptionId) ∧
      (i.kind ≠ .unknown → i.id ≠ t.unknownOptionId) := by
  have hpos : i.id ≠ 0 := by
    have hopt := option_of_mem t hids hi
    intro hzero
    rw [OptTable.option, if_pos hzero] at hopt
    exact absurd hopt (by simp)
  obtain ⟨hin, hun⟩ := findSpecial_ids {} 0 t.optionInfos
  constructor
  · intro hk he
    rcases hin with hin | ⟨j, hj, hjk, hjid⟩
    · exact hpos (he.trans hin)
    · exact hk (option_inj hids hi hj (he.trans hjid.symm) ▸ hjk)
  · intro hk he
    rcases hun with hun | ⟨j, hj, hjk, hjid⟩
    · exact hpos (he.trans hun)
    · exact hk (option_inj hids hi hj (he.trans hjid.symm) ▸ hjk)

/-! Where an emitted argument comes from. -/

lemma index_le_of_mem_inputsFrom {index : ℕ} {post : List Str} {a : ParsedArgument}
    (h : a ∈ inputsFrom t index post) : index ≤ a.index := by
  rw [inputsFrom_eq, List.mem_mapIdx] at h
  obtain ⟨k, hk, rfl⟩ := h
  exact Nat.le_add_right index k

lemma takeOne_index {excludeOption : Info → Bool} {index n : ℕ} {str : Str} {following : List Str}
    {a : ParsedArgument} (h : takeOne t excludeOption index str following = (some a, n)) :
    a.index = index := by
  rw [takeOne] at h
  split_ifs at h
  · obtain ⟨rfl, -⟩ : plain t.inputOptionId str index = a ∧ 1 = n := by simpa using h
    rfl
  · cases ht : t.taking excludeOption str with
    | none =>
      rw [ht] at h
      obtain ⟨rfl, -⟩ : plain (untaken t str) str index = a ∧ 1 = n := by simpa using h
      rfl
    | some p =>
      simp only [ht, takeWith, Prod.mk.injEq] at h
      obtain ⟨vs, -, rfl⟩ := Option.map_eq_some_iff.mp h.1
      simp [found]

lemma index_le_of_mem_parseFrom {excludeOption : Info → Bool} {index : ℕ} {argv : List Str}
    {a : ParsedArgument}
    (h : a ∈ (parseFrom t excludeOption index argv).args) : index ≤ a.index := by
  induction index, argv using parseFrom.induct t excludeOption with
  | case1 index =>
    rw [parseFrom] at h
    exact absurd h List.not_mem_nil
  | case2 index following ih =>
    rw [parseFrom, if_pos rfl] at h
    exact (Nat.le_succ index).trans (ih h)
  | case3 index str following hs hdash =>
    rw [parseFrom, if_neg hs, if_pos hdash] at h
    simp only [dashDashArgs] at h
    split_ifs at h with hpack
    · rw [List.mem_singleton.mp h]
    · exact (Nat.le_succ index).trans (index_le_of_mem_inputsFrom h)
  | case4 index str following hs hdash n htaken =>
    rw [parseFrom_missing t hs hdash htaken] at h
    exact absurd h List.not_mem_nil
  | case5 index str following hs hdash a' n htaken ih =>
    rw [parseFrom_emit t hs hdash htaken] at h
    rcases List.mem_cons.mp h with rfl | h
    · exact (takeOne_index htaken).ge
    · exact (Nat.le_add_right index n).trans (ih h)

def ReadAt (excludeOption : Info → Bool) (text : Str) (following : List Str)
    (a : ParsedArgument) : Prop :=
  text ≠ [] ∧
    ((¬ (t.dashDashParsing = true ∧ text = dashDash) ∧
        ∃ n, takeOne t excludeOption a.index text following = (some a, n)) ∨
      (t.dashDashParsing = true ∧ t.dashDashAsSinglePack = true) ∧ text = dashDash ∧
        a = ⟨t.inputOptionId, dashDash, following, a.index, none, none⟩)

lemma readAt_of_emitted {excludeOption : Info → Bool} {index : ℕ} {argv : List Str}
    {a : ParsedArgument}
    (h : a ∈ (parseFrom t excludeOption index argv).args)
    (hpos : a.index ∈ (optionPositions t excludeOption 0 index argv).map Prod.fst) :
    ∃ text following, argv.drop (a.index - index) = text :: following ∧
      ReadAt (t := t) excludeOption text following a := by
  induction index, argv using parseFrom.induct t excludeOption with
  | case1 index =>
    rw [parseFrom] at h
    exact absurd h List.not_mem_nil
  | case2 index following ih =>
    rw [parseFrom, if_pos rfl] at h
    rw [optionPositions, if_pos rfl] at hpos
    have hle := index_le_of_mem_parseFrom h
    have hsub : a.index - index = a.index - (index + 1) + 1 := by omega
    rw [hsub]
    exact ih h hpos
  | case3 index str following hs hdash =>
    rw [parseFrom, if_neg hs, if_pos hdash] at h
    rw [optionPositions, if_neg hs, if_pos hdash, List.map_singleton, List.mem_singleton] at hpos
    simp only [dashDashArgs] at h
    split_ifs at h with hpack
    · rw [hpos, Nat.sub_self]
      refine ⟨str, following, rfl, hs, Or.inr ⟨⟨hdash.1, hpack⟩, hdash.2, ?_⟩⟩
      rw [hpos]
      exact List.mem_singleton.mp h
    · have hle := index_le_of_mem_inputsFrom h
      omega
  | case4 index str following hs hdash n htaken =>
    rw [parseFrom_missing t hs hdash htaken] at h
    exact absurd h List.not_mem_nil
  | case5 index str following hs hdash a' n htaken ih =>
    have hn := takeOne_pos t excludeOption index str following
    rw [htaken] at hn
    simp only at hn
    rw [parseFrom_emit t hs hdash htaken] at h
    rw [optionPositions_emit t hs hdash htaken, List.map_cons, List.mem_cons] at hpos
    rcases List.mem_cons.mp h with rfl | h
    · rw [takeOne_index htaken, Nat.sub_self]
      refine ⟨str, following, rfl, hs, Or.inl ⟨hdash, n, ?_⟩⟩
      rw [takeOne_index htaken]
      exact htaken
    · have hle := index_le_of_mem_parseFrom h
      obtain ⟨text, rest, hdrop, hread⟩ := ih h (hpos.resolve_left (by simp only; omega))
      refine ⟨text, rest, ?_, hread⟩
      have hsub : a.index - index = a.index - (index + n) + (n - 1) + 1 := by omega
      rw [hsub, List.drop_succ_cons, Nat.add_comm, ← List.drop_drop]
      exact hdrop

end Catter.Opt
