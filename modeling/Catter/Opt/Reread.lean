import Catter.Opt.Render

/-! Which rendered arguments are read back with the same meaning: all except those of
options that take a joined and a separate value, the packs after "--", and the ones
whose first written piece is read differently. -/

namespace Catter.Opt

open Text

variable {t : OptTable}

/-! Reading the pieces. -/

lemma parseFrom_single {excludeOption : Info → Bool} {i : Info} {size : ℕ} {piece : Str}
    {rest values : List Str} (hne : piece ≠ [])
    (hdd : ¬ (t.dashDashParsing = true ∧ piece = dashDash))
    (hin : isInput t piece = false) (htaking : t.taking excludeOption piece = some (i, size))
    (hc : consume i size piece rest = (some values, rest.length + 1)) :
    parseFrom t excludeOption 0 (piece :: rest) =
      ⟨[found t i (piece.take size) values 0], 0, 0⟩ := by
  have htaken : takeOne t excludeOption 0 piece rest =
      (some (found t i (piece.take size) values 0), rest.length + 1) := by
    rw [takeOne, hin, if_neg Bool.false_ne_true, htaking]
    simp only [takeWith, hc, Option.map_some]
  rw [parseFrom_emit t hne hdd htaken, Nat.add_sub_cancel, List.drop_length, parseFrom]
  rfl

lemma consume_of_parseFrom {excludeOption : Info → Bool}
    (hids : t.optionInfos.map Info.id = List.range' 1 t.optionInfos.length) {i : Info}
    (hi : i ∈ t.optionInfos) (hki : i.kind ≠ .input) (hku : i.kind ≠ .unknown) {piece : Str}
    {rest : List Str}
    {b : ParsedArgument} (hne : piece ≠ [])
    (hargs : (parseFrom t excludeOption 0 (piece :: rest)).args = [b]) (hid : b.optionId = i.id) :
    ¬ (t.dashDashParsing = true ∧ piece = dashDash) ∧ isInput t piece = false ∧
      ∃ size n, t.taking excludeOption piece = some (i, size) ∧
        consume i size piece rest = (some b.values, n) := by
  have hspecial := id_ne_special hids hi
  have hinput : b.optionId ≠ t.inputOptionId := by
    rw [hid]
    exact hspecial.1 hki
  have hunknown : b.optionId ≠ t.unknownOptionId := by
    rw [hid]
    exact hspecial.2 hku
  have hdd : ¬ (t.dashDashParsing = true ∧ piece = dashDash) := by
    intro hdash
    rw [parseFrom, if_neg hne, if_pos hdash] at hargs
    have hb : b ∈ dashDashArgs t 0 rest := by
      rw [show dashDashArgs t 0 rest = [b] from hargs]
      exact List.mem_singleton.mpr rfl
    rw [dashDashArgs] at hb
    split_ifs at hb with hpack
    · exact hinput (by rw [List.mem_singleton.mp hb])
    · rw [inputsFrom_eq, List.mem_mapIdx] at hb
      obtain ⟨k, hk, rfl⟩ := hb
      exact hinput rfl
  refine ⟨hdd, ?_⟩
  cases htaken : takeOne t excludeOption 0 piece rest with
  | mk a n =>
    cases a with
    | none =>
      rw [parseFrom_missing t hne hdd htaken] at hargs
      exact absurd hargs (by simp)
    | some a =>
      rw [parseFrom_emit t hne hdd htaken] at hargs
      obtain ⟨rfl, -⟩ := List.cons.inj hargs
      rw [takeOne] at htaken
      split_ifs at htaken with hin
      · obtain ⟨rfl, -⟩ : plain t.inputOptionId piece 0 = a ∧ 1 = n := by simpa using htaken
        exact absurd rfl hinput
      · refine ⟨by simpa using hin, ?_⟩
        cases ht : t.taking excludeOption piece with
        | none =>
          rw [ht] at htaken
          obtain ⟨rfl, -⟩ : plain (untaken t piece) piece 0 = a ∧ 1 = n := by simpa using htaken
          simp only [plain, untaken] at hinput hunknown
          split_ifs at hinput hunknown
          · exact absurd rfl hinput
          · exact absurd rfl hunknown
        | some p =>
          obtain ⟨j, size⟩ := p
          simp only [ht, takeWith, Prod.mk.injEq] at htaken
          obtain ⟨values, hv, rfl⟩ := Option.map_eq_some_iff.mp htaken.1
          have hj : j ∈ t.optionInfos :=
            searchable_subset t (searchFrom_subset t piece (taking_some t ht).1)
          obtain rfl : j = i := option_inj hids hj hi (by simpa [found] using hid)
          refine ⟨size, (consume j size piece rest).2, rfl, ?_⟩
          rw [show (found t j (piece.take size) values 0).values = values by simp [found], ← hv]

lemma readsBack_iff (ht : Renderable t) {excludeOption : Info → Bool} {i : Info}
    (hi : i ∈ t.optionInfos)
    {a : ParsedArgument} (ha : a.Separable) :
    readsBack t excludeOption i a ↔
      ∃ b, (parseFrom t excludeOption 0 (firstPiece i a :: restPieces i a)).args = [b] ∧
        b.optionId = a.optionId ∧ b.values = a.values := by
  rw [readsBack, split2vec_toArgStr (ht.no_override i hi) ha,
    internalParseArgs_eq t excludeOption ht.ungrouped]
  constructor
  · rintro ⟨r, b, hr, hargs, hb⟩
    obtain rfl := Except.ok.inj hr
    exact ⟨b, hargs, hb⟩
  · rintro ⟨b, hargs, hb⟩
    exact ⟨_, b, rfl, hargs, hb⟩

-- The pieces after a spelling survive unless more than the first comma is lost.
lemma commaPieces_drop_iff {vs : List Str} (h : ∀ v ∈ vs, v ≠ [] ∧ comma ∉ v) (hne : vs ≠ [])
    (k : ℕ) :
    commaPieces ((vs.flatMap (comma :: ·)).drop k) = vs ↔ k ≤ 1 := by
  obtain ⟨v, vs, rfl⟩ := List.exists_cons_of_ne_nil hne
  obtain ⟨c, v, rfl⟩ := List.exists_cons_of_ne_nil (h v List.mem_cons_self).1
  constructor
  · intro hpieces
    by_contra hk
    have hall := flatten_commaPieces (((c :: v) :: vs).flatMap (comma :: ·))
    have hdropped := flatten_commaPieces ((((c :: v) :: vs).flatMap (comma :: ·)).drop k)
    rw [commaPieces_flatMap h] at hall
    rw [hpieces, hall] at hdropped
    have hc : c ≠ comma := by
      intro he
      exact (h _ List.mem_cons_self).2 (he ▸ List.mem_cons_self)
    have hk2 : k = 2 + (k - 2) := by omega
    rw [List.flatMap_cons, List.cons_append, List.cons_append, hk2, ← List.drop_drop,
      List.drop_succ_cons,
      List.drop_succ_cons, List.drop_zero, List.filter_cons_of_neg (by simp),
      List.filter_cons_of_pos (by simpa using hc)] at hdropped
    have hlen := congrArg List.length hdropped
    have hle := ((List.drop_sublist (k - 2) (v ++ vs.flatMap (comma :: ·))).filter
      (· ≠ comma)).length_le
    rw [List.length_cons] at hlen
    omega
  · intro hk
    interval_cases k
    · exact commaPieces_flatMap h
    · have hsplit := splitOn_append_flatMap (h _ List.mem_cons_self).2
        fun w hw => (h w (List.mem_cons_of_mem _ hw)).2
      rw [List.flatMap_cons, List.cons_append, List.drop_succ_cons, List.drop_zero,
        commaPieces, hsplit,
        List.filter_eq_self]
      intro w hw
      simpa using (h w hw).1

/-! The argument `a` that the option `i` emitted from `text`. -/

structure EmittedBy (t : OptTable) (excludeOption : Info → Bool) (i : Info) (size : ℕ) (text : Str)
    (following : List Str) (a : ParsedArgument) (n : ℕ) : Prop where
  text_ne : text ≠ []
  not_dash_dash : ¬ (t.dashDashParsing = true ∧ text = dashDash)
  not_input : isInput t text = false
  taking : t.taking excludeOption text = some (i, size)
  takes : Takes i size text following a.values n
  optionId : a.optionId = i.id
  spelling : a.spelling = text.take size

namespace EmittedBy

variable {excludeOption : Info → Bool} {i : Info} {size n : ℕ} {text : Str} {following : List Str}
  {a : ParsedArgument} (h : EmittedBy t excludeOption i size text following a n)
include h

lemma mem_searchable : i ∈ t.searchable := searchFrom_subset t text (taking_some t h.taking).1

lemma mem_infos : i ∈ t.optionInfos := searchable_subset t h.mem_searchable

lemma size_eq : size = matchOpt i text t.ignoreCase := (taking_some t h.taking).2.1

lemma size_le : size ≤ text.length := h.size_eq ▸ matchOpt_le i text t.ignoreCase

lemma matched : matchOpt i text t.ignoreCase ≠ 0 := h.size_eq ▸ (taking_some t h.taking).2.2.1

lemma spelling_length : a.spelling.length = size := by
  rw [h.spelling, List.length_take_of_le h.size_le]

lemma spelling_exact (he : size = text.length) : a.spelling = text := by
  rw [h.spelling, he, List.take_length]

lemma spelling_inexact (he : size ≠ text.length) : a.spelling ≠ text := by
  intro hs
  have hlen := h.spelling_length
  rw [hs] at hlen
  exact he hlen.symm

lemma spelling_append : a.spelling ++ text.drop size = text := by
  rw [h.spelling, List.take_append_drop]

lemma size_le_matchOpt (more : Str) : size ≤ matchOpt i (a.spelling ++ more) t.ignoreCase := by
  rw [h.size_eq]
  apply matchOpt_extend h.matched
  rw [h.spelling, h.size_eq, List.take_append_of_le_length, List.take_take, min_self]
  rw [List.length_take_of_le (matchOpt_le i text t.ignoreCase)]

lemma matchOpt_spelling : matchOpt i a.spelling t.ignoreCase = size := by
  have hge := h.size_le_matchOpt []
  have hle := matchOpt_le i a.spelling t.ignoreCase
  rw [List.append_nil] at hge
  rw [h.spelling_length] at hle
  omega

lemma consume_same (hno : i.flags &&& renderJoined = 0 ∧ i.flags &&& renderSeparate = 0)
    (hvalues : ∀ v ∈ a.values, v ≠ []) (hk : i.kind ≠ .joinedAndSeparate)
    (hpiece : firstPiece i a = text) :
    consume i size text (restPieces i a) = (some a.values, (restPieces i a).length + 1) := by
  have hstyle := renderStyle_of_no_override hno
  have hsize := h.size_le
  have htakes := h.takes
  have hinexact : size ≠ text.length → a.spelling ≠ text := h.spelling_inexact
  generalize hvs : a.values = values at htakes hvalues
  cases htakes with
  | flag hf he =>
    have hrest : restPieces i a = [] := by rw [restPieces, hstyle, hf, hvs]
    rw [hrest]
    exact consume_of_takes (.flag hf he)
  | joined hj =>
    have hrest : restPieces i a = [] := by rw [restPieces, hstyle, hj]
    rw [hrest]
    exact consume_of_takes (.joined hj)
  | commaJoined hc =>
    have hrest : restPieces i a = [] := by rw [restPieces, hstyle, hc]
    rw [hrest]
    exact consume_of_takes (.commaJoined hc)
  | @separate value _ hs he hv =>
    have hrest : restPieces i a = [value] := by
      rcases hs with hs | hs <;> rw [restPieces, hstyle, hs, hvs]
    rw [hrest]
    exact consume_of_takes (.separate hs he hv)
  | attached ha he =>
    rw [firstPiece, ha] at hpiece
    exact absurd hpiece (hinexact he)
  | multiArg hm he hp =>
    have hrest : restPieces i a = following.take i.param := by rw [restPieces, hstyle, hm, hvs]
    have hlen : (following.take i.param).length = i.param := List.length_take_of_le hp
    have hagain : Takes i size text (following.take i.param) ((following.take i.param).take i.param)
        (1 + i.param) := .multiArg hm he hlen.ge
    rw [List.take_take, min_self] at hagain
    rw [hrest, hlen, Nat.add_comm]
    exact consume_of_takes hagain
  | joinedAndSeparate hj hv => exact absurd hj hk
  | remaining hr he =>
    have hrest : restPieces i a = following.takeWhile (· ≠ []) := by
      rcases hr with hr | hr <;> rw [restPieces, hstyle, hr, hvs]
    have hall : (following.takeWhile (· ≠ [])).takeWhile (· ≠ []) =
        following.takeWhile (· ≠ []) := by
      rw [List.takeWhile_eq_self_iff]
      intro v hv
      simpa using hvalues v hv
    have hagain : Takes i size text (following.takeWhile (· ≠ []))
        ((following.takeWhile (· ≠ [])).takeWhile (· ≠ []))
        (1 + ((following.takeWhile (· ≠ [])).takeWhile (· ≠ [])).length) := .remaining hr he
    rw [hall] at hagain
    rw [hrest, Nat.add_comm]
    exact consume_of_takes hagain
  | remainingJoined hr he =>
    rw [firstPiece, hr] at hpiece
    exact absurd hpiece (hinexact he)

lemma differs (hpiece : firstPiece i a ≠ text) :
    (i.kind = .commaJoined ∧ a.values = commaPieces (text.drop size)) ∨
      (i.kind = .joinedOrSeparate ∧ firstPiece i a = a.spelling ∧ ∃ v, a.values = [v]) ∨
      i.kind = .remainingArgsJoined ∧ firstPiece i a = a.spelling := by
  have htakes := h.takes
  have hexact := h.spelling_exact
  have hjoined := h.spelling_append
  generalize hvs : a.values = values at htakes
  cases htakes with
  | flag hf he =>
    rw [firstPiece, hf] at hpiece
    exact absurd (hexact he) hpiece
  | joined hj =>
    rw [firstPiece, hj, hvs] at hpiece
    exact absurd hjoined hpiece
  | commaJoined hc => exact Or.inl ⟨hc, rfl⟩
  | separate hs he hv =>
    rcases hs with hs | hs <;> rw [firstPiece, hs] at hpiece <;> exact absurd (hexact he) hpiece
  | attached ha he =>
    exact Or.inr (Or.inl ⟨ha, by rw [firstPiece, ha], text.drop size, rfl⟩)
  | multiArg hm he hp =>
    rw [firstPiece, hm] at hpiece
    exact absurd (hexact he) hpiece
  | joinedAndSeparate hj hv =>
    rw [firstPiece, hj, hvs] at hpiece
    exact absurd hjoined hpiece
  | remaining hr he =>
    rcases hr with hr | hr <;> rw [firstPiece, hr] at hpiece <;> exact absurd (hexact he) hpiece
  | remainingJoined hr he =>
    exact Or.inr (Or.inr ⟨hr, by rw [firstPiece, hr]⟩)

lemma handled : i.kind ≠ .input ∧ i.kind ≠ .unknown := by
  have hd := h.takes.not_declines
  constructor <;> intro hk <;> simp [Info.declines, hk] at hd

lemma commaJoined_piece (hk : i.kind = .commaJoined)
    (hvalues : a.values = commaPieces (text.drop size)) :
    commaPieces ((firstPiece i a).drop (matchOpt i (firstPiece i a) t.ignoreCase)) = a.values ↔
      matchOpt i (firstPiece i a) t.ignoreCase ≤ a.spelling.length + 1 := by
  have hpieces : ∀ v ∈ a.values, v ≠ [] ∧ comma ∉ v := by
    intro v hv
    rw [hvalues] at hv
    exact mem_commaPieces hv
  have hpiece : firstPiece i a = a.spelling ++ a.values.flatMap (comma :: ·) := by
    rw [firstPiece, hk]
  have hge := h.size_le_matchOpt (a.values.flatMap (comma :: ·))
  rw [← hpiece] at hge
  obtain ⟨k, hsize⟩ := Nat.exists_eq_add_of_le hge
  have hdrop : (firstPiece i a).drop (size + k) = (a.values.flatMap (comma :: ·)).drop k := by
    rw [hpiece, ← h.spelling_length, ← List.drop_drop, List.drop_left]
  rw [hsize, hdrop, h.spelling_length, Nat.add_le_add_iff_left]
  by_cases hempty : a.values = []
  · have hspelling : firstPiece i a = a.spelling := by
      rw [hpiece, hempty, List.flatMap_nil, List.append_nil]
    have hk0 : k = 0 := by
      rw [hspelling, h.matchOpt_spelling] at hsize
      omega
    rw [hempty, hk0]
    simp [commaPieces]
  · exact commaPieces_drop_iff hpieces hempty k

lemma consume_differs (hno : i.flags &&& renderJoined = 0 ∧ i.flags &&& renderSeparate = 0)
    (hvalues : ∀ v ∈ a.values, v ≠ []) (hpiece : firstPiece i a ≠ text)
    (hle : matchOpt i (firstPiece i a) t.ignoreCase ≤ a.spelling.length + 1) :
    consume i (matchOpt i (firstPiece i a) t.ignoreCase) (firstPiece i a) (restPieces i a) =
      (some a.values, (restPieces i a).length + 1) := by
  have hstyle := renderStyle_of_no_override hno
  rcases h.differs hpiece with ⟨hk, hv⟩ | ⟨hk, hp, v, hv⟩ | ⟨hk, hp⟩
  · have hrest : restPieces i a = [] := by rw [restPieces, hstyle, hk]
    rw [hrest, consume_of_takes (.commaJoined hk), (h.commaJoined_piece hk hv).mpr hle]
    rfl
  · have hrest : restPieces i a = [v] := by rw [restPieces, hstyle, hk, hv]
    have hne : v ≠ [] := hvalues v (by rw [hv]; exact List.mem_singleton.mpr rfl)
    rw [hrest, hp, h.matchOpt_spelling, hv]
    exact consume_of_takes (.separate (Or.inr hk) h.spelling_length.symm hne)
  · have hrest : restPieces i a = a.values := by rw [restPieces, hstyle, hk]
    have hall : a.values.takeWhile (· ≠ []) = a.values := by
      rw [List.takeWhile_eq_self_iff]
      intro v hv
      simpa using hvalues v hv
    have hagain : Takes i size a.spelling a.values (a.values.takeWhile (· ≠ []))
        (1 + (a.values.takeWhile (· ≠ [])).length) := .remaining (Or.inr hk) h.spelling_length.symm
    rw [hall] at hagain
    rw [hrest, hp, h.matchOpt_spelling, Nat.add_comm]
    exact consume_of_takes hagain

lemma matchOpt_piece (hpiece : firstPiece i a ≠ text) :
    matchOpt i (firstPiece i a) t.ignoreCase ≠ 0 ∧
      ∀ k l, i.declines k l = false := by
  have hpos : size ≠ 0 := by
    rw [h.size_eq]
    exact h.matched
  rcases h.differs hpiece with ⟨hk, hv⟩ | ⟨hk, hp, -⟩ | ⟨hk, hp⟩
  · have hge := h.size_le_matchOpt (a.values.flatMap (comma :: ·))
    have hpiece : firstPiece i a = a.spelling ++ a.values.flatMap (comma :: ·) := by
      rw [firstPiece, hk]
    rw [← hpiece] at hge
    exact ⟨by omega, fun k l => by simp [Info.declines, hk]⟩
  · rw [hp, h.matchOpt_spelling]
    exact ⟨hpos, fun k l => by simp [Info.declines, hk]⟩
  · rw [hp, h.matchOpt_spelling]
    exact ⟨hpos, fun k l => by simp [Info.declines, hk]⟩

lemma candidate_piece (hpiece : firstPiece i a ≠ text) :
    t.candidate excludeOption (firstPiece i a) i ≠ none := by
  obtain ⟨hmatch, hdeclines⟩ := h.matchOpt_piece hpiece
  have hex := (taking_some t h.taking).2.2.2.1
  rw [OptTable.candidate, if_neg (by simp [hmatch, hex, hdeclines])]
  exact Option.some_ne_none _

lemma readsBack_same (ht : Renderable t) (ha : a.Separable) (hpiece : firstPiece i a = text) :
    readsBack t excludeOption i a ↔ i.kind ≠ .joinedAndSeparate := by
  have hno := ht.no_override i h.mem_infos
  rw [readsBack_iff ht h.mem_infos ha, hpiece]
  constructor
  · rintro ⟨b, hargs, hid, hv⟩ hk
    have hrest : restPieces i a = [] := by rw [restPieces, renderStyle_of_no_override hno, hk]
    obtain ⟨-, -, size', n', -, hc⟩ :=
      consume_of_parseFrom ht.ids h.mem_infos h.handled.1 h.handled.2 h.text_ne hargs
        (hid.trans h.optionId)
    rw [hrest] at hc
    simp [consume, hk] at hc
  · intro hk
    have hc := h.consume_same hno ha.values_ne hk hpiece
    rw [parseFrom_single h.text_ne h.not_dash_dash h.not_input h.taking hc]
    exact ⟨_, rfl, by simp [found, h.optionId], by simp [found]⟩

lemma readsBack_differs (ht : Renderable t) (ha : a.Separable) (hpiece : firstPiece i a ≠ text) :
    readsBack t excludeOption i a ↔
      isInput t (firstPiece i a) = false ∧
        ¬ (t.dashDashParsing = true ∧ firstPiece i a = dashDash) ∧
        matchOpt i (firstPiece i a) t.ignoreCase ≤ a.spelling.length + 1 ∧
        (t.ignoreCase = true ∨ t.tablegenMode = true →
          meets t excludeOption i (firstPiece i a)) := by
  have hno := ht.no_override i h.mem_infos
  have hne : firstPiece i a ≠ [] := by
    intro hempty
    have hmatch := (h.matchOpt_piece hpiece).1
    have hle := matchOpt_le i (firstPiece i a) t.ignoreCase
    rw [hempty] at hle hmatch
    simp only [List.length_nil] at hle
    omega
  rw [readsBack_iff ht h.mem_infos ha]
  constructor
  · rintro ⟨b, hargs, hid, hv⟩
    obtain ⟨hdd, hin, size', n', htaking, hc⟩ :=
      consume_of_parseFrom ht.ids h.mem_infos h.handled.1 h.handled.2 hne hargs
        (hid.trans h.optionId)
    obtain ⟨-, rfl, -⟩ := taking_some t htaking
    refine ⟨hin, hdd, ?_, fun _ => (meets_iff excludeOption i _).mpr htaking⟩
    rcases h.differs hpiece with ⟨hk, hvalues⟩ | ⟨hk, hp, -⟩ | ⟨hk, hp⟩
    · rw [← h.commaJoined_piece hk hvalues, ← hv]
      rw [consume, hk] at hc
      exact Option.some.inj (Prod.mk.inj hc).1
    · rw [hp, h.matchOpt_spelling, h.spelling_length]
      exact Nat.le_succ size
    · rw [hp, h.matchOpt_spelling, h.spelling_length]
      exact Nat.le_succ size
  · rintro ⟨hin, hdd, hle, hmeets⟩
    have hreached : meets t excludeOption i (firstPiece i a) := by
      by_cases hmode : t.ignoreCase = true ∨ t.tablegenMode = true
      · exact hmeets hmode
      · obtain ⟨hic, htable⟩ := not_or.mp hmode
        exact meets_of_linear ht (by simpa using hic) (by simpa using htable) h.mem_searchable
          (h.candidate_piece hpiece)
    have htaking := (meets_iff excludeOption i _).mp hreached
    have hc := h.consume_differs hno ha.values_ne hpiece hle
    rw [parseFrom_single hne hdd hin htaking hc]
    exact ⟨_, rfl, by simp [found, h.optionId], by simp [found]⟩

lemma readsBack_option (ht : Renderable t) (ha : a.Separable) :
    readsBack t excludeOption i a ↔ keepsMeaning t excludeOption i text a := by
  have hinput : i.kind = .input → a.values = [] := fun hk => absurd hk h.handled.1
  by_cases hpiece : firstPiece i a = text
  · rw [h.readsBack_same ht ha hpiece, keepsMeaning]
    constructor
    · intro hk
      exact ⟨hk, hinput, fun hne => absurd hpiece hne⟩
    · rintro ⟨hk, -⟩
      exact hk
  · have hk : i.kind ≠ .joinedAndSeparate := by
      rcases h.differs hpiece with ⟨hk, -⟩ | ⟨hk, -⟩ | ⟨hk, -⟩ <;> simp [hk]
    rw [h.readsBack_differs ht ha hpiece, keepsMeaning]
    constructor
    · intro hreads
      exact ⟨hk, hinput, fun _ => hreads⟩
    · rintro ⟨-, -, hreads⟩
      exact hreads hpiece

end EmittedBy

/-! Inputs, unknown arguments and the pack. -/

lemma readsBack_plain (ht : Renderable t) {excludeOption : Info → Bool} {i : Info}
    (hi : i ∈ t.optionInfos)
    (hk : i.kind = .input ∨ i.kind = .unknown) {id index : ℕ} {text : Str} (hne : text ≠ [])
    (hdd : ¬ (t.dashDashParsing = true ∧ text = dashDash))
    (htaken : takeOne t excludeOption 0 text [] = (some (plain id text 0), 1))
    (ha : (plain id text index).Separable) :
    readsBack t excludeOption i (plain id text index) ↔
      keepsMeaning t excludeOption i text (plain id text index) := by
  have hno := ht.no_override i hi
  have hpiece : firstPiece i (plain id text index) = text := by
    rcases hk with hk | hk <;> rw [firstPiece, hk] <;> rfl
  have hrest : restPieces i (plain id text index) = [] := by
    rcases hk with hk | hk <;> rw [restPieces, renderStyle_of_no_override hno, hk]
  have hkind : i.kind ≠ .joinedAndSeparate := by
    rcases hk with hk | hk <;> simp [hk]
  rw [readsBack_iff ht hi ha, hpiece, hrest, parseFrom_emit t hne hdd htaken, List.drop_nil,
    parseFrom,
    keepsMeaning]
  constructor
  · intro _
    exact ⟨hkind, fun _ => rfl, fun hdiffers => absurd hpiece hdiffers⟩
  · intro _
    exact ⟨_, rfl, rfl, rfl⟩

lemma readsBack_pack (ht : Renderable t) {excludeOption : Info → Bool} {i : Info}
    (hi : i ∈ t.optionInfos)
    (hk : i.kind = .input) (hdd : t.dashDashParsing = true) (hpack : t.dashDashAsSinglePack = true)
    {following : List Str} {index : ℕ}
    (ha : (⟨t.inputOptionId, dashDash, following, index, none, none⟩ : ParsedArgument).Separable) :
    readsBack t excludeOption i ⟨t.inputOptionId, dashDash, following, index, none, none⟩ ↔
      keepsMeaning t excludeOption i dashDash
        ⟨t.inputOptionId, dashDash, following, index, none, none⟩ := by
  have hno := ht.no_override i hi
  have hpiece : firstPiece i ⟨t.inputOptionId, dashDash, following, index, none, none⟩ =
      dashDash := by
    rw [firstPiece, hk]
  have hrest : restPieces i ⟨t.inputOptionId, dashDash, following, index, none, none⟩ = [] := by
    rw [restPieces, renderStyle_of_no_override hno, hk]
  rw [readsBack_iff ht hi ha, hpiece, hrest, parseFrom_stop t hdd, dashDashArgs, if_pos hpack,
    keepsMeaning, hk]
  constructor
  · rintro ⟨b, hargs, -, hv⟩
    obtain rfl := (List.cons.inj hargs).1
    exact ⟨by decide, fun _ => hv.symm, fun hdiffers => absurd hpiece hdiffers⟩
  · rintro ⟨-, hvalues, -⟩
    exact ⟨_, rfl, rfl, (hvalues rfl).symm⟩

lemma plain_or_emittedBy {excludeOption : Info → Bool} {text : Str} {following : List Str}
    {a : ParsedArgument}
    {n : ℕ} (hne : text ≠ []) (hdd : ¬ (t.dashDashParsing = true ∧ text = dashDash))
    (htaken : takeOne t excludeOption a.index text following = (some a, n)) :
    (∃ id, (id = t.inputOptionId ∨ id = t.unknownOptionId) ∧ plain id text a.index = a ∧
        takeOne t excludeOption 0 text [] = (some (plain id text 0), 1)) ∨
      ∃ i size m, i ∈ t.optionInfos ∧ EmittedBy t excludeOption i size text following a m := by
  rw [takeOne] at htaken
  split_ifs at htaken with hin
  · obtain ⟨hplain, -⟩ : plain t.inputOptionId text a.index = a ∧ 1 = n := by simpa using htaken
    refine Or.inl ⟨t.inputOptionId, Or.inl rfl, hplain, ?_⟩
    rw [takeOne, if_pos hin]
  · cases htaking : t.taking excludeOption text with
    | none =>
      rw [htaking] at htaken
      obtain ⟨hplain, -⟩ : plain (untaken t text) text a.index = a ∧ 1 = n := by simpa using htaken
      refine Or.inl ⟨untaken t text, ?_, hplain, ?_⟩
      · unfold untaken
        split_ifs
        · exact Or.inl rfl
        · exact Or.inr rfl
      · rw [takeOne, if_neg hin, htaking]
    | some p =>
      obtain ⟨i, size⟩ := p
      cases hc : consume i size text following with
      | mk values m =>
        simp only [htaking, takeWith, hc, Prod.mk.injEq] at htaken
        obtain ⟨vs, rfl, hfound⟩ := Option.map_eq_some_iff.mp htaken.1
        have hi := searchable_subset t (searchFrom_subset t text (taking_some t htaking).1)
        have hvalues : a.values = vs := by
          rw [← hfound]
          simp [found]
        refine Or.inr ⟨i, size, m, hi, hne, hdd, by simpa using hin, htaking, ?_, ?_, ?_⟩
        · rw [hvalues]
          exact takes_of_consume hc
        · rw [← hfound]
          simp [found]
        · rw [← hfound]
          simp [found]

lemma kind_of_special (hids : t.optionInfos.map Info.id = List.range' 1 t.optionInfos.length)
    {i : Info}
    (hi : i ∈ t.optionInfos) (hid : i.id = t.inputOptionId ∨ i.id = t.unknownOptionId) :
    i.kind = .input ∨ i.kind = .unknown := by
  obtain ⟨hinput, hunknown⟩ := id_ne_special hids hi
  by_contra hk
  obtain ⟨hki, hku⟩ := not_or.mp hk
  rcases hid with hid | hid
  · exact hinput hki hid
  · exact hunknown hku hid

variable (t)

theorem rendered_reads_back_iff (ht : Renderable t) (excludeOption : Info → Bool) (argv : List Str)
    (r : ParseResult) (hr : internalParseArgs t excludeOption argv = .ok r) (a : ParsedArgument)
    (hmem : a ∈ r.args) (hpos : a.index ∈ (optionPositions t excludeOption 0 0 argv).map Prod.fst)
    (i : Info)
    (hoption : t.option a.optionId = some i) (ha : a.Separable) :
    readsBack t excludeOption i a ↔ keepsMeaning t excludeOption i (argv.getD a.index []) a := by
  rw [internalParseArgs_eq t excludeOption ht.ungrouped] at hr
  obtain rfl := Except.ok.inj hr
  obtain ⟨text, following, hdrop, hne, hread⟩ := readAt_of_emitted hmem hpos
  rw [Nat.sub_zero] at hdrop
  have htext : argv.getD a.index [] = text := by
    rw [List.getD_eq_getElem?_getD, ← List.head?_drop, hdrop]
    rfl
  obtain ⟨hid, hi⟩ := option_id ht.ids hoption
  rw [htext]
  rcases hread with ⟨hdd, n, htaken⟩ | ⟨⟨hdd, hpack⟩, rfl, hpacked⟩
  · rcases plain_or_emittedBy hne hdd htaken with ⟨id, hspecial, hplain, htaken⟩
      | ⟨j, size, m, hj, hemitted⟩
    · rw [← hplain] at ha hid ⊢
      have hk := kind_of_special ht.ids hi (by rwa [hid])
      exact readsBack_plain ht hi hk hne hdd htaken ha
    · obtain rfl : i = j := option_inj ht.ids hi hj (hid.trans hemitted.optionId)
      exact hemitted.readsBack_option ht ha
  · rw [hpacked] at ha hid ⊢
    have hk : i.kind = .input := by
      by_contra hk
      exact (id_ne_special ht.ids hi).1 hk hid
    exact readsBack_pack ht hi hk hdd hpack ha

theorem rendered_linker_flags_read_back :
    readsBack { optionInfos := driverInfos } (fun _ => false)
        (.unaliasedOne [dash] (lit "-Wl,") 5 .commaJoined 1)
          ⟨5, lit "-Wl,", [lit "-s", lit "-x"], 0, none, none⟩ ↔
      keepsMeaning { optionInfos := driverInfos } (fun _ => false)
        (.unaliasedOne [dash] (lit "-Wl,") 5 .commaJoined 1) (lit "-Wl,-s,,-x")
        ⟨5, lit "-Wl,", [lit "-s", lit "-x"], 0, none, none⟩ :=
  rendered_reads_back_iff { optionInfos := driverInfos } ⟨by decide, rfl, by decide, by decide⟩
    (fun _ => false)
    [lit "-Wl,-s,,-x"] { args := [⟨5, lit "-Wl,", [lit "-s", lit "-x"], 0, none, none⟩] }
      (by decide)
    ⟨5, lit "-Wl,", [lit "-s", lit "-x"], 0, none, none⟩ (by decide) (by decide) _ (by decide)
    ⟨by decide, by decide, by decide, by decide⟩

theorem joined_and_separate_loses_a_value :
    internalParseArgs { optionInfos := driverInfos } (fun _ => false) [lit "-Xcc", lit "-g"] =
        .ok { args := [⟨8, lit "-X", [lit "cc", lit "-g"], 0, none, none⟩] } ∧
      ParsedArgument.Separable ⟨8, lit "-X", [lit "cc", lit "-g"], 0, none, none⟩ ∧
      ¬ readsBack { optionInfos := driverInfos } (fun _ => false)
        (.unaliasedOne [dash] (lit "-X") 8 .joinedAndSeparate 2)
        ⟨8, lit "-X", [lit "cc", lit "-g"], 0, none, none⟩ := by
  refine ⟨by decide, ⟨by decide, by decide, by decide, by decide⟩, ?_⟩
  rintro ⟨r, b, hr, hargs, -⟩
  have hrun : internalParseArgs { optionInfos := driverInfos } (fun _ => false) [lit "-Xcc"] =
      .ok ⟨[], 0, 1⟩ := by
    decide
  have hpieces : split2vec (toArgStr ⟨8, lit "-X", [lit "cc", lit "-g"], 0, none, none⟩
      (Info.renderStyle (.unaliasedOne [dash] (lit "-X") 8 .joinedAndSeparate 2))) =
        [lit "-Xcc"] := by
    decide
  rw [hpieces, hrun] at hr
  obtain rfl := Except.ok.inj hr
  exact absurd hargs (by simp)

end Catter.Opt
