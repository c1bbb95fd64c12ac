import Catter.Opt.Parse

/-! The parser loses and duplicates nothing: the arguments that it emits cut the
argument vector into consecutive spans, up to an option whose values are missing. -/

namespace Catter.Opt

open Text

variable (t : OptTable)

def handledKinds : List OptionClass :=
  [.flag, .joined, .separate, .remainingArgs, .remainingArgsJoined, .commaJoined, .multiArg,
    .joinedOrSeparate, .joinedAndSeparate]

structure Sequential : Prop where
  ids : t.optionInfos.map Info.id = List.range' 1 t.optionInfos.length
  handled : ∀ i ∈ t.searchable, i.prefixes ≠ [] → i.kind ∈ handledKinds
  ungrouped : t.groupedShortOptions = false
  no_dash_dash : t.dashDashParsing = false

-- How the arguments of a span, followed by the rest of the vector, spell an option with its values.
inductive Spells (i : Info) (spelling : Str) : List Str → List Str → List Str → Prop
  | flag {rest} : i.kind = .flag → Spells i spelling [] [spelling] rest
  | joined {value rest} : i.kind = .joined ∨ i.kind = .joinedOrSeparate ∧ value ≠ [] →
    Spells i spelling [value] [spelling ++ value] rest
  | commaJoined {text rest} : i.kind = .commaJoined →
    Spells i spelling (commaPieces text) [spelling ++ text] rest
  | separate {value rest} : i.kind = .separate ∨ i.kind = .joinedOrSeparate →
    Spells i spelling [value] [spelling, value] rest
  | multiArg {values rest} : i.kind = .multiArg → values.length = i.param →
    Spells i spelling values (spelling :: values) rest
  | joinedAndSeparate {value next rest} : i.kind = .joinedAndSeparate →
    Spells i spelling [value, next] [spelling ++ value, next] rest
  | remaining {values} : i.kind = .remainingArgs ∨ i.kind = .remainingArgsJoined →
    Spells i spelling values (spelling :: values) []
  | remainingJoined {value values} : i.kind = .remainingArgsJoined → value ≠ [] →
    Spells i spelling (value :: values) ((spelling ++ value) :: values) []

inductive Reads (a : ParsedArgument) : List Str → List Str → Prop
  | plain {rest} : a.optionId = t.inputOptionId ∨ a.optionId = t.unknownOptionId → a.values = [] →
    Reads a [a.spelling] rest
  | option {i span rest} : t.option a.optionId = some i → Spells i a.spelling a.values span rest →
    Reads a span rest

inductive Covers (todo : List Str) : ℕ → List Str → List ParsedArgument → Prop
  | done {index} : Covers todo index todo []
  | arg {index a span rest args} : a.index = index → Reads t a span rest →
    Covers todo (index + span.length) rest args → Covers todo index (span ++ rest) (a :: args)

def Info.needs (i : Info) (size argSize : ℕ) : ℕ :=
  match i.kind with
  | .separate | .joinedAndSeparate => 2
  | .joinedOrSeparate => if size ≠ argSize then 1 else 2
  | .multiArg => 1 + i.param
  | _ => 1

def Lacks (excludeOption : Info → Bool) : List Str → Prop
  | [] => False
  | str :: following => isInput t str = false ∧
    ∃ i size, t.taking excludeOption str = some (i, size) ∧
      following.length + 1 < i.needs size str.length

def ParseResult.covered (argv : List Str) (r : ParseResult) : ℕ :=
  if r.missingArgCount = 0 then argv.length else r.missingArgIndex

structure Partitioned (excludeOption : Info → Bool) (argv : List Str) (r : ParseResult) : Prop where
  covers : Covers t (argv.drop (r.covered argv)) 0 argv r.args
  starts : ∀ a, r.args.head? = some a → a.index = 0
  increasing : (r.args.map ParsedArgument.index).Pairwise (· < ·)
  missing : r.missingArgCount ≠ 0 ↔ Lacks t excludeOption (argv.drop r.missingArgIndex)

lemma option_of_mem (hids : t.optionInfos.map Info.id = List.range' 1 t.optionInfos.length)
    {i : Info}
    (h : i ∈ t.optionInfos) : t.option i.id = some i := by
  obtain ⟨k, hk, rfl⟩ := List.mem_iff_getElem.mp h
  have hid : t.optionInfos[k].id = 1 + k := by
    have hget : (t.optionInfos.map Info.id)[k]? = some (1 + k) := by
      rw [hids, List.getElem?_range' hk, one_mul]
    rw [List.getElem?_map, List.getElem?_eq_getElem hk] at hget
    exact Option.some.inj hget
  rw [OptTable.option, hid, if_neg (by omega), Nat.add_sub_cancel_left]
  exact List.getElem?_eq_getElem hk

lemma spells_of_takes {i : Info} {size n : ℕ} {str : Str} {following values : List Str}
    (hne : ∀ s ∈ following, s ≠ []) (hsize : size ≤ str.length)
    (h : Takes i size str following values n) :
    ∃ span, str :: following = span ++ following.drop (n - 1) ∧ span.length = n ∧
      Spells i (str.take size) values span (following.drop (n - 1)) := by
  have hjoin : str.take size ++ str.drop size = str := List.take_append_drop size str
  have hall : following.takeWhile (· ≠ []) = following := by
    rw [List.takeWhile_eq_self_iff]
    intro s hs
    simpa using hne s hs
  have hexact : size = str.length → str.take size = str := by
    intro he
    rw [he, List.take_length]
  have hjoined : size ≠ str.length → str.drop size ≠ [] := by
    intro he
    rw [Ne, List.drop_eq_nil_iff]
    omega
  cases h with
  | flag hk he => exact ⟨[str.take size], by simp [hexact he], rfl, .flag hk⟩
  | joined hk => exact ⟨[str.take size ++ str.drop size], by simp, rfl, .joined (Or.inl hk)⟩
  | commaJoined hk => exact ⟨[str.take size ++ str.drop size], by simp, rfl, .commaJoined hk⟩
  | separate hk he hv => exact ⟨[str.take size, _], by simp [hexact he], rfl, .separate hk⟩
  | attached hk he =>
    exact ⟨[str.take size ++ str.drop size], by simp, rfl, .joined (Or.inr ⟨hk, hjoined he⟩)⟩
  | multiArg hk he hp =>
    refine ⟨str.take size :: following.take i.param, by simp [hexact he], ?_, .multiArg hk ?_⟩
    · simp only [List.length_cons, List.length_take]
      omega
    · rw [List.length_take]
      omega
  | joinedAndSeparate hk hv =>
    exact ⟨[str.take size ++ str.drop size, _], by simp, rfl, .joinedAndSeparate hk⟩
  | remaining hk he =>
    rw [hall, Nat.add_sub_cancel_left, List.drop_length]
    exact ⟨str.take size :: following, by simp [hexact he], by simp [Nat.add_comm], .remaining hk⟩
  | remainingJoined hk he =>
    rw [hall, Nat.add_sub_cancel_left, List.drop_length]
    exact ⟨(str.take size ++ str.drop size) :: following, by simp, by simp [Nat.add_comm],
      .remainingJoined hk (hjoined he)⟩

lemma consume_none_iff {i : Info} {size : ℕ} {str : Str} {following : List Str}
    (hne : ∀ s ∈ following, s ≠ []) (hd : i.declines size str.length = false) :
    (consume i size str following).1 = none ↔ following.length + 1 < i.needs size str.length := by
  have hnext : following.headD [] = [] ↔ following.length + 1 < 2 := by
    cases following with
    | nil => simp
    | cons s rest => simpa using hne s List.mem_cons_self
  cases hk : i.kind with
  | group | input | unknown | values => simp [Info.declines, hk] at hd
  | joined | commaJoined | remainingArgsJoined => simp [consume, Info.needs, hk]
  | flag | remainingArgs =>
    simp only [Info.declines, hk, decide_eq_false_iff_not] at hd
    simp [consume, Info.needs, hk, if_neg hd]
  | separate =>
    simp only [Info.declines, hk, decide_eq_false_iff_not] at hd
    simp only [consume, Info.needs, hk, if_neg hd, hnext]
    split_ifs with hshort <;> simp only [hshort]
  | multiArg =>
    simp only [Info.declines, hk, decide_eq_false_iff_not] at hd
    simp only [consume, Info.needs, hk, if_neg hd]
    split_ifs <;> simp <;> omega
  | joinedAndSeparate =>
    simp only [consume, Info.needs, hk, hnext]
    split_ifs with hshort <;> simp only [hshort]
  | joinedOrSeparate =>
    simp only [consume, Info.needs, hk, hnext]
    split_ifs <;> simp_all

lemma takeOne_reads (hids : t.optionInfos.map Info.id = List.range' 1 t.optionInfos.length)
    {excludeOption : Info → Bool} {index n : ℕ} {str : Str} {following : List Str}
    {a : ParsedArgument}
    (hne : ∀ s ∈ following, s ≠ [])
    (h : takeOne t excludeOption index str following = (some a, n)) :
    a.index = index ∧ ∃ span, str :: following = span ++ following.drop (n - 1) ∧ span.length = n ∧
      Reads t a span (following.drop (n - 1)) := by
  rw [takeOne] at h
  split_ifs at h with hin
  · obtain ⟨rfl, rfl⟩ : plain t.inputOptionId str index = a ∧ 1 = n := by simpa using h
    exact ⟨rfl, [str], rfl, rfl, .plain (Or.inl rfl) rfl⟩
  · cases ht : t.taking excludeOption str with
    | none =>
      rw [ht] at h
      obtain ⟨rfl, rfl⟩ : plain (untaken t str) str index = a ∧ 1 = n := by simpa using h
      refine ⟨rfl, [str], rfl, rfl, .plain ?_ rfl⟩
      rw [plain, untaken]
      split_ifs
      · exact Or.inl rfl
      · exact Or.inr rfl
    | some p =>
      obtain ⟨i, size⟩ := p
      obtain ⟨hmem, hsize, -, -, -⟩ := taking_some t ht
      rw [ht] at h
      cases hc : consume i size str following with
      | mk values m =>
        simp only [takeWith, hc, Prod.mk.injEq] at h
        obtain ⟨ha, rfl⟩ := h
        obtain ⟨vs, rfl, rfl⟩ := Option.map_eq_some_iff.mp ha
        have hle : size ≤ str.length := hsize ▸ matchOpt_le _ _ _
        obtain ⟨span, hspan, hlen, hspells⟩ := spells_of_takes hne hle (takes_of_consume hc)
        have hoption : t.option i.id = some i :=
          option_of_mem t hids (searchable_subset t (searchFrom_subset t str hmem))
        exact ⟨by simp [found], span, hspan, hlen,
          .option (by simpa [found] using hoption) (by simpa [found])⟩

lemma takeOne_lacks {excludeOption : Info → Bool} {index n : ℕ} {str : Str} {following : List Str}
    (hne : ∀ s ∈ following, s ≠ []) (h : takeOne t excludeOption index str following = (none, n)) :
    Lacks t excludeOption (str :: following) := by
  rw [takeOne] at h
  split_ifs at h with hin
  · simp at h
  · cases ht : t.taking excludeOption str with
    | none => simp [ht] at h
    | some p =>
      obtain ⟨i, size⟩ := p
      have hd := (taking_some t ht).2.2.2.2
      simp only [ht, takeWith, Prod.mk.injEq, Option.map_eq_none_iff] at h
      obtain ⟨hnone, rfl⟩ := h
      exact ⟨by simpa using hin, i, size, ht, (consume_none_iff hne hd).mp hnone⟩

lemma takeOne_none_of_lacks {excludeOption : Info → Bool} {str : Str} {following : List Str}
    (index : ℕ)
    (hne : ∀ s ∈ following, s ≠ []) (h : Lacks t excludeOption (str :: following)) :
    (takeOne t excludeOption index str following).1 = none := by
  obtain ⟨hin, i, size, ht, hlt⟩ := h
  have hd := (taking_some t ht).2.2.2.2
  rw [takeOne, hin, if_neg Bool.false_ne_true, ht]
  simp only [takeWith, Option.map_eq_none_iff]
  exact (consume_none_iff hne hd).mpr hlt

-- The covered part ends at the end of the vector or at an option that lacks values.
lemma covers_parseFrom (hids : t.optionInfos.map Info.id = List.range' 1 t.optionInfos.length)
    (hdd : t.dashDashParsing = false) (excludeOption : Info → Bool) (index : ℕ) (argv : List Str)
    (hne : ∀ s ∈ argv, s ≠ []) :
    let r := parseFrom t excludeOption index argv
    (r.missingArgCount = 0 ∧ r.missingArgIndex = 0 ∧ Covers t [] index argv r.args) ∨
      r.missingArgCount ≠ 0 ∧ ∃ todo, argv.length + index = r.missingArgIndex + todo.length ∧
        todo <:+ argv ∧ Covers t todo index argv r.args ∧ Lacks t excludeOption todo := by
  induction index, argv using parseFrom.induct t excludeOption with
  | case1 index =>
    rw [parseFrom]
    exact Or.inl ⟨rfl, rfl, .done⟩
  | case2 index following ih => exact absurd rfl (hne [] List.mem_cons_self)
  | case3 index str following hs hdash => simp [hdd] at hdash
  | case4 index str following hs hdash n htaken =>
    rw [parseFrom_missing t hs hdash htaken]
    have hnef : ∀ s ∈ following, s ≠ [] := fun s hs => hne s (List.mem_cons_of_mem _ hs)
    have hn := takeOne_none_count t htaken
    refine Or.inr ⟨?_, str :: following, ?_, List.suffix_refl _, .done, takeOne_lacks t hnef htaken⟩
    · simp only
      omega
    · simp only
      omega
  | case5 index str following hs hdash a n htaken ih =>
    rw [parseFrom_emit t hs hdash htaken]
    have hnef : ∀ s ∈ following, s ≠ [] := fun s hs => hne s (List.mem_cons_of_mem _ hs)
    obtain ⟨hindex, span, hspan, hlen, hreads⟩ := takeOne_reads t hids hnef htaken
    have hlength : (str :: following).length = n + (following.drop (n - 1)).length := by
      rw [hspan, List.length_append, hlen]
    rw [hspan]
    obtain ⟨hcount, hmissing, hcovers⟩ | ⟨hcount, todo, hlen', hsuffix, hcovers, hlacks⟩ :=
      ih fun s hs => hnef s (List.mem_of_mem_drop hs)
    · exact Or.inl ⟨hcount, hmissing, .arg hindex hreads (by rwa [hlen])⟩
    · refine Or.inr ⟨hcount, todo, ?_, hsuffix.trans (List.suffix_append _ _),
        .arg hindex hreads (by rwa [hlen]), hlacks⟩
      rw [List.length_append, hlen]
      simp only [ParseResult.emit]
      omega

lemma Spells.span_pos {i : Info} {spelling : Str} {values span rest : List Str}
    (h : Spells i spelling values span rest) : 0 < span.length := by
  cases h <;> simp

lemma Reads.span_pos {t : OptTable} {a : ParsedArgument} {span rest : List Str}
    (h : Reads t a span rest) :
    0 < span.length := by
  cases h with
  | plain => simp
  | option hi hs => exact hs.span_pos

lemma Covers.index_le {t : OptTable} {todo argv : List Str} {index : ℕ} {args : List ParsedArgument}
    (h : Covers t todo index argv args) : ∀ a ∈ args, index ≤ a.index := by
  induction h with
  | done => simp
  | arg hindex hreads hrest ih =>
    intro b hb
    cases hb with
    | head => exact hindex.ge
    | tail _ hb =>
      have hle := ih b hb
      omega

lemma Covers.increasing {t : OptTable} {todo argv : List Str} {index : ℕ}
    {args : List ParsedArgument}
    (h : Covers t todo index argv args) : (args.map ParsedArgument.index).Pairwise (· < ·) := by
  induction h with
  | done => simp
  | arg hindex hreads hrest ih =>
    rw [List.map_cons, List.pairwise_cons]
    refine ⟨?_, ih⟩
    intro k hk
    obtain ⟨b, hb, rfl⟩ := List.mem_map.mp hk
    have hle := hrest.index_le b hb
    have hpos := hreads.span_pos
    omega

lemma Covers.starts {t : OptTable} {todo argv : List Str} {index : ℕ} {args : List ParsedArgument}
    (h : Covers t todo index argv args) : ∀ a, args.head? = some a → a.index = index := by
  cases h with
  | done => simp
  | arg hindex hreads hrest =>
    intro b hb
    obtain rfl := Option.some.inj hb
    exact hindex

theorem parse_partitions_argv (ht : Sequential t) (excludeOption : Info → Bool) (argv : List Str)
    (hne : ∀ s ∈ argv, s ≠ []) :
    ∃ r, internalParseArgs t excludeOption argv = .ok r ∧ Partitioned t excludeOption argv r := by
  refine ⟨_, internalParseArgs_eq t excludeOption ht.ungrouped argv, ?_⟩
  obtain ⟨hcount, hmissing, hcovers⟩ | ⟨hcount, todo, hlen, hsuffix, hcovers, hlacks⟩ :=
    covers_parseFrom t ht.ids ht.no_dash_dash excludeOption 0 argv hne
  · refine ⟨?_, hcovers.starts, hcovers.increasing, ?_⟩
    · rw [ParseResult.covered, if_pos hcount, List.drop_length]
      exact hcovers
    · rw [hcount, hmissing, List.drop_zero]
      simp only [ne_eq, not_true_eq_false, false_iff]
      intro hlacks
      cases argv with
      | nil => exact hlacks
      | cons str following =>
        have hnef : ∀ s ∈ following, s ≠ [] := fun s hs => hne s (List.mem_cons_of_mem _ hs)
        have hnone := takeOne_none_of_lacks t 0 hnef hlacks
        cases htaken : takeOne t excludeOption 0 str following with
        | mk a n =>
          rw [htaken] at hnone
          obtain rfl : a = none := hnone
          rw [parseFrom_missing t (hne str List.mem_cons_self) (by simp [ht.no_dash_dash]) htaken]
            at hcount
          have hn := takeOne_none_count t htaken
          simp only at hcount
          omega
  · obtain ⟨before, rfl⟩ := hsuffix
    have hindex : (parseFrom t excludeOption 0 (before ++ todo)).missingArgIndex =
        before.length := by
      rw [List.length_append] at hlen
      omega
    refine ⟨?_, hcovers.starts, hcovers.increasing, ?_⟩
    · rw [ParseResult.covered, if_neg hcount, hindex, List.drop_left]
      exact hcovers
    · rw [hindex, List.drop_left]
      exact ⟨fun _ => hlacks, fun _ => hcount⟩

def driverInfos : List Info :=
  [.input 1, .unknown 2, .unaliasedOne [dash] (lit "-c") 3 .flag 0,
    .unaliasedOne [dash] (lit "-D") 4 .joined 1, .unaliasedOne [dash] (lit "-Wl,") 5 .commaJoined 1,
    .unaliasedOne [dash] (lit "-arch") 6 .separate 1,
      .unaliasedOne [dash] (lit "-o") 7 .joinedOrSeparate 1,
    .unaliasedOne [dash] (lit "-X") 8 .joinedAndSeparate 2,
      .unaliasedOne [dash] (lit "-sect") 9 .multiArg 3,
    .unaliasedOne [dash] (lit "-args") 10 .remainingArgs 1,
    .unaliasedOne [dashDash] (lit "--link") 11 .remainingArgsJoined 1]

theorem parse_partitions_driver_argv :
    ∃ r, internalParseArgs { optionInfos := driverInfos } (fun _ => false)
        [lit "a.c", lit "-c", lit "-DN=1", lit "-Wl,-s,,-x", lit "-o", lit "a.o", lit "-Xcc",
          lit "-g", lit "-sect", lit "x"] =
        .ok r ∧
      Partitioned { optionInfos := driverInfos } (fun _ => false)
        [lit "a.c", lit "-c", lit "-DN=1", lit "-Wl,-s,,-x", lit "-o", lit "a.o", lit "-Xcc",
          lit "-g", lit "-sect", lit "x"] r :=
  parse_partitions_argv { optionInfos := driverInfos }
    ⟨by decide, by decide, rfl, rfl⟩ _ _ (by decide)

end Catter.Opt
