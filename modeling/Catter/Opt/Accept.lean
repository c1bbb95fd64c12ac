import Catter.Opt.Table

/-! `Option::accept`: what an option takes from the arguments once its spelling has
matched the beginning of the current one. -/

namespace Catter.Opt

open Text

def comma : UInt8 := 44

structure ParsedArgument where
  optionId : ℕ
  spelling : Str
  values : List Str
  index : ℕ
  unaliasedOptionId : Option ℕ := none
  unaliasedAdditionValues : Option (List Str) := none
deriving DecidableEq

-- The spelling that `get_spelling_view` reads back from the array of eight characters.
def toSpellingArray (str : Str) : Str := (str.take 7).takeWhile (· ≠ 0)

def commaPieces (str : Str) : List Str := (str.splitOn comma).filter (· ≠ [])

-- The second component is the new index. A null result with an index that moved
-- tells that values are missing.
def acceptInternal (i : Info) (args : List Str) (spelling : Str) (index : ℕ) :
    Option ParsedArgument × ℕ :=
  let arg := args.getD index []
  let next := args.getD (index + 1) []
  let isExact := spelling.length = arg.length
  let found (values : List Str) : Option ParsedArgument :=
    some ⟨i.id, spelling, values, index, none, none⟩
  let lacksNext := index + 2 > args.length ∨ next = []
  let remaining := (args.drop (index + 1)).takeWhile (· ≠ [])
  match i.kind with
  | .flag => if ¬ isExact then (none, index) else (found [], index + 1)
  | .joined => (found [arg.drop spelling.length], index + 1)
  | .commaJoined => (found (commaPieces (arg.drop spelling.length)), index + 1)
  | .separate =>
    if ¬ isExact then (none, index)
    else if lacksNext then (none, index + 2)
    else (found [next], index + 2)
  | .multiArg =>
    if ¬ isExact then (none, index)
    else if index + (1 + i.param) > args.length then (none, index + (1 + i.param))
    else (found ((args.drop (index + 1)).take i.param), index + (1 + i.param))
  | .joinedOrSeparate =>
    if ¬ isExact then (found [arg.drop spelling.length], index + 1)
    else if lacksNext then (none, index + 2)
    else (found [next], index + 2)
  | .joinedAndSeparate =>
    if lacksNext then (none, index + 2)
    else (found [arg.drop spelling.length, next], index + 2)
  | .remainingArgs =>
    if ¬ isExact then (none, index)
    else (found remaining, index + 1 + remaining.length)
  | .remainingArgsJoined =>
    let joined := if ¬ isExact then [arg.drop spelling.length] else []
    (found (joined ++ remaining), index + 1 + remaining.length)
  -- std::unreachable()
  | .group | .input | .unknown | .values => (none, index)

-- The alias of an alias is null, so one step reaches the end of the chain.
def OptTable.unaliasedOption (t : OptTable) (i : Info) : Info := (t.option i.aliasId).getD i

def unalias (t : OptTable) (i : Info) (a : ParsedArgument) : ParsedArgument :=
  let unaliased := t.unaliasedOption i
  if i.id = unaliased.id then a
  else
    let a := { a with unaliasedOptionId := some unaliased.id }
    if i.kind ≠ .flag then a
    else match i.aliasArgs with
      | some vals => { a with unaliasedAdditionValues := some vals }
      | none =>
        if (t.option unaliased.id).map Info.kind = some .joined then
          { a with unaliasedAdditionValues := some [[]] }
        else a

def accept (t : OptTable) (i : Info) (args : List Str) (spelling : Str) (groupedShortOption : Bool)
    (index : ℕ) : Option ParsedArgument × ℕ :=
  let a :=
    if groupedShortOption ∧ i.kind = .flag then
      (some ⟨i.id, toSpellingArray spelling, [], index, none, none⟩, index)
    else acceptInternal i args spelling index
  (a.1.map (unalias t i), a.2)

lemma unalias_frame (t : OptTable) (i : Info) (a : ParsedArgument) :
    ∃ id vals, unalias t i a =
      { a with unaliasedOptionId := id, unaliasedAdditionValues := vals } := by
  cases ha : i.aliasArgs with
  | some vals =>
    simp only [unalias, ha]
    split_ifs <;> exact ⟨_, _, rfl⟩
  | none =>
    simp only [unalias, ha]
    split_ifs <;> exact ⟨_, _, rfl⟩

@[simp] lemma unalias_optionId (t : OptTable) (i : Info) (a : ParsedArgument) :
    (unalias t i a).optionId = a.optionId := by
  obtain ⟨id, vals, he⟩ := unalias_frame t i a
  rw [he]

@[simp] lemma unalias_spelling (t : OptTable) (i : Info) (a : ParsedArgument) :
    (unalias t i a).spelling = a.spelling := by
  obtain ⟨id, vals, he⟩ := unalias_frame t i a
  rw [he]

@[simp] lemma unalias_values (t : OptTable) (i : Info) (a : ParsedArgument) :
    (unalias t i a).values = a.values := by
  obtain ⟨id, vals, he⟩ := unalias_frame t i a
  rw [he]

@[simp] lemma unalias_index (t : OptTable) (i : Info) (a : ParsedArgument) :
    (unalias t i a).index = a.index := by
  obtain ⟨id, vals, he⟩ := unalias_frame t i a
  rw [he]

lemma accept_ungrouped (t : OptTable) (i : Info) (args : List Str) (spelling : Str) (index : ℕ) :
    accept t i args spelling false index =
      ((acceptInternal i args spelling index).1.map (unalias t i),
        (acceptInternal i args spelling index).2) := by
  simp [accept]

/-! The same on lists: the values and the number of arguments that an option takes,
from the current argument and the ones that follow it. -/

def consume (i : Info) (size : ℕ) (arg : Str) (following : List Str) : Option (List Str) × ℕ :=
  let next := following.headD []
  let remaining := following.takeWhile (· ≠ [])
  match i.kind with
  | .flag => if size ≠ arg.length then (none, 0) else (some [], 1)
  | .joined => (some [arg.drop size], 1)
  | .commaJoined => (some (commaPieces (arg.drop size)), 1)
  | .separate =>
    if size ≠ arg.length then (none, 0) else if next = [] then (none, 2) else (some [next], 2)
  | .multiArg =>
    if size ≠ arg.length then (none, 0)
    else if following.length < i.param then (none, 1 + i.param)
    else (some (following.take i.param), 1 + i.param)
  | .joinedOrSeparate =>
    if size ≠ arg.length then (some [arg.drop size], 1)
    else if next = [] then (none, 2)
    else (some [next], 2)
  | .joinedAndSeparate => if next = [] then (none, 2) else (some [arg.drop size, next], 2)
  | .remainingArgs => if size ≠ arg.length then (none, 0)
      else (some remaining, 1 + remaining.length)
  | .remainingArgsJoined =>
    (some ((if size ≠ arg.length then [arg.drop size] else []) ++ remaining), 1 + remaining.length)
  | .group | .input | .unknown | .values => (none, 0)

lemma lacksNext_iff (args : List Str) (index : ℕ) :
    (index + 2 > args.length ∨ args.getD (index + 1) [] = []) ↔
      (args.drop (index + 1)).headD [] = [] := by
  have hnext : (args.drop (index + 1)).headD [] = args.getD (index + 1) [] := by
    rw [List.headD_eq_head?_getD, List.head?_drop, List.getD_eq_getElem?_getD]
  rw [hnext, or_iff_right_iff_imp]
  intro hlen
  simp [List.getD, List.getElem?_eq_none (by omega : args.length ≤ index + 1)]

lemma acceptInternal_eq (i : Info) (args : List Str) (spelling : Str) (index : ℕ)
    (h : index < args.length) :
    acceptInternal i args spelling index =
      let taken := consume i spelling.length (args.getD index []) (args.drop (index + 1))
      (taken.1.map fun values => ⟨i.id, spelling, values, index, none, none⟩, index + taken.2) := by
  have hnext : (args.drop (index + 1)).headD [] = args.getD (index + 1) [] := by
    rw [List.headD_eq_head?_getD, List.head?_drop, List.getD_eq_getElem?_getD]
  have hmulti : index + (1 + i.param) > args.length ↔ (args.drop (index + 1)).length < i.param := by
    rw [List.length_drop]
    omega
  simp only [acceptInternal, consume, lacksNext_iff, hnext, hmulti, ne_eq]
  cases i.kind with
  | flag | separate | multiArg | joinedOrSeparate | joinedAndSeparate | remainingArgs =>
    simp only
    split_ifs <;> simp [Nat.add_assoc]
  | joined | commaJoined | remainingArgsJoined => simp [Nat.add_assoc]
  | group | input | unknown | values => rfl

/-! An option declines when it needs an exact match and has none. -/

def Info.declines (i : Info) (size argSize : ℕ) : Bool :=
  match i.kind with
  | .flag | .separate | .multiArg | .remainingArgs => size ≠ argSize
  | .group | .input | .unknown | .values => true
  | .joined | .commaJoined | .joinedOrSeparate | .joinedAndSeparate | .remainingArgsJoined => false

lemma consume_declines {i : Info} {size : ℕ} {arg : Str} (following : List Str)
    (h : i.declines size arg.length = true) : consume i size arg following = (none, 0) := by
  cases hk : i.kind <;> simp_all [Info.declines, consume]

lemma consume_pos {i : Info} {size : ℕ} {arg : Str} (following : List Str)
    (h : i.declines size arg.length = false) : 0 < (consume i size arg following).2 := by
  cases hk : i.kind with
  | group | input | unknown | values => simp [Info.declines, hk] at h
  | joined | commaJoined | remainingArgsJoined => simp [consume, hk]
  | joinedOrSeparate | joinedAndSeparate =>
    simp only [consume, hk]
    split_ifs <;> simp
  | flag | remainingArgs =>
    simp only [Info.declines, hk, decide_eq_false_iff_not] at h
    simp [consume, hk, if_neg h]
  | separate | multiArg =>
    simp only [Info.declines, hk, decide_eq_false_iff_not] at h
    simp only [consume, hk, if_neg h]
    split_ifs <;> simp

lemma consume_none_count {i : Info} {size : ℕ} {str : Str} {following : List Str}
    (hd : i.declines size str.length = false) (h : (consume i size str following).1 = none) :
    2 ≤ (consume i size str following).2 := by
  cases hk : i.kind with
  | group | input | unknown | values => simp [Info.declines, hk] at hd
  | joined | commaJoined | remainingArgsJoined => simp [consume, hk] at h
  | flag | remainingArgs =>
    simp only [Info.declines, hk, decide_eq_false_iff_not] at hd
    simp [consume, hk, if_neg hd] at h
  | separate | multiArg =>
    simp only [Info.declines, hk, decide_eq_false_iff_not] at hd
    simp only [consume, hk, if_neg hd] at h ⊢
    split_ifs at h ⊢
    omega
  | joinedAndSeparate | joinedOrSeparate =>
    simp only [consume, hk] at h ⊢
    split_ifs at h ⊢
    all_goals simp_all

inductive Takes (i : Info) (size : ℕ) (arg : Str) : List Str → List Str → ℕ → Prop
  | flag {following} : i.kind = .flag → size = arg.length → Takes i size arg following [] 1
  | joined {following} : i.kind = .joined → Takes i size arg following [arg.drop size] 1
  | commaJoined {following} : i.kind = .commaJoined →
    Takes i size arg following (commaPieces (arg.drop size)) 1
  | separate {value following} : i.kind = .separate ∨ i.kind = .joinedOrSeparate →
    size = arg.length →
    value ≠ [] → Takes i size arg (value :: following) [value] 2
  | attached {following} : i.kind = .joinedOrSeparate → size ≠ arg.length →
    Takes i size arg following [arg.drop size] 1
  | multiArg {following} : i.kind = .multiArg → size = arg.length → i.param ≤ following.length →
    Takes i size arg following (following.take i.param) (1 + i.param)
  | joinedAndSeparate {value following} : i.kind = .joinedAndSeparate → value ≠ [] →
    Takes i size arg (value :: following) [arg.drop size, value] 2
  | remaining {following} : i.kind = .remainingArgs ∨ i.kind = .remainingArgsJoined →
    size = arg.length →
    Takes i size arg following (following.takeWhile (· ≠ []))
      (1 + (following.takeWhile (· ≠ [])).length)
  | remainingJoined {following} : i.kind = .remainingArgsJoined → size ≠ arg.length →
    Takes i size arg following (arg.drop size :: following.takeWhile (· ≠ []))
      (1 + (following.takeWhile (· ≠ [])).length)

lemma takes_of_consume {i : Info} {size n : ℕ} {arg : Str} {following vs : List Str}
    (h : consume i size arg following = (some vs, n)) : Takes i size arg following vs n := by
  cases hk : i.kind with
  | group | input | unknown | values => simp [consume, hk] at h
  | joined =>
    obtain ⟨rfl, rfl⟩ : [arg.drop size] = vs ∧ 1 = n := by simpa [consume, hk] using h
    exact .joined hk
  | commaJoined =>
    obtain ⟨rfl, rfl⟩ : commaPieces (arg.drop size) = vs ∧ 1 = n := by simpa [consume, hk] using h
    exact .commaJoined hk
  | flag =>
    simp only [consume, hk] at h
    split_ifs at h with he
    · simp at h
    · obtain ⟨rfl, rfl⟩ : [] = vs ∧ 1 = n := by simpa using h
      exact .flag hk (by simpa using he)
  | separate =>
    simp only [consume, hk] at h
    split_ifs at h with he hn
    · simp at h
    · simp at h
    · cases following with
      | nil => simp at hn
      | cons v rest =>
        obtain ⟨rfl, rfl⟩ : [v] = vs ∧ 2 = n := by simpa using h
        exact .separate (Or.inl hk) (by simpa using he) hn
  | multiArg =>
    simp only [consume, hk] at h
    split_ifs at h with he hn
    · simp at h
    · simp at h
    · obtain ⟨rfl, rfl⟩ : following.take i.param = vs ∧ 1 + i.param = n := by simpa using h
      exact .multiArg hk (by simpa using he) (by omega)
  | joinedOrSeparate =>
    simp only [consume, hk] at h
    split_ifs at h with he hn
    · obtain ⟨rfl, rfl⟩ : [arg.drop size] = vs ∧ 1 = n := by simpa using h
      exact .attached hk he
    · simp at h
    · cases following with
      | nil => simp at hn
      | cons v rest =>
        obtain ⟨rfl, rfl⟩ : [v] = vs ∧ 2 = n := by simpa using h
        exact .separate (Or.inr hk) (by simpa using he) hn
  | joinedAndSeparate =>
    simp only [consume, hk] at h
    split_ifs at h with hn
    · simp at h
    · cases following with
      | nil => simp at hn
      | cons v rest =>
        obtain ⟨rfl, rfl⟩ : [arg.drop size, v] = vs ∧ 2 = n := by simpa using h
        exact .joinedAndSeparate hk hn
  | remainingArgs =>
    simp only [consume, hk] at h
    split_ifs at h with he
    · simp at h
    · obtain ⟨hvs, rfl⟩ := Prod.mk.inj h
      obtain rfl := Option.some.inj hvs
      exact .remaining (Or.inl hk) (by simpa using he)
  | remainingArgsJoined =>
    simp only [consume, hk] at h
    split_ifs at h with he
    · obtain ⟨hvs, rfl⟩ := Prod.mk.inj h
      obtain rfl := Option.some.inj hvs
      exact .remainingJoined hk he
    · obtain ⟨hvs, rfl⟩ := Prod.mk.inj h
      obtain rfl := Option.some.inj hvs
      exact .remaining (Or.inr hk) (by simpa using he)

lemma consume_of_takes {i : Info} {size n : ℕ} {arg : Str} {following vs : List Str}
    (h : Takes i size arg following vs n) : consume i size arg following = (some vs, n) := by
  cases h with
  | flag hk he | joined hk | commaJoined hk | joinedAndSeparate hk he | attached hk he
  | remainingJoined hk he => simp [consume, *]
  | multiArg hk he hp => simp [consume, hk, he, hp]
  | separate hk he hv | remaining hk he => rcases hk with hk | hk <;> simp [consume, *]

lemma Takes.le {i : Info} {size n : ℕ} {arg : Str} {following vs : List Str}
    (h : Takes i size arg following vs n) : n ≤ following.length + 1 := by
  have hremaining : (following.takeWhile (· ≠ [])).length ≤ following.length :=
    (List.takeWhile_prefix _).length_le
  cases h with
  | flag | joined | commaJoined | attached => omega
  | separate | joinedAndSeparate => simp
  | multiArg => omega
  | remaining | remainingJoined => omega

-- Only an option that takes all the remaining arguments looks past the ones it takes.
lemma Takes.append {i : Info} {size n : ℕ} {arg : Str} {following vs : List Str}
    (h : Takes i size arg following vs n)
    (hk : i.kind ≠ .remainingArgs ∧ i.kind ≠ .remainingArgsJoined)
    (more : List Str) : Takes i size arg (following ++ more) vs n := by
  cases h with
  | flag hf he => exact .flag hf he
  | joined hj => exact .joined hj
  | commaJoined hc => exact .commaJoined hc
  | separate hs he hv => exact .separate hs he hv
  | attached ha he => exact .attached ha he
  | joinedAndSeparate hj hv => exact .joinedAndSeparate hj hv
  | multiArg hm he hp =>
    rw [← List.take_append_of_le_length hp]
    apply Takes.multiArg hm he
    rw [List.length_append]
    omega
  | remaining hr he => exact absurd hr (not_or.mpr hk)
  | remainingJoined hr he => exact absurd hr hk.2

lemma Takes.not_declines {i : Info} {size n : ℕ} {arg : Str} {following vs : List Str}
    (h : Takes i size arg following vs n) : i.declines size arg.length = false := by
  cases h with
  | flag hk he | multiArg hk he | joined hk | commaJoined hk | joinedAndSeparate hk | attached hk
  | remainingJoined hk => simp [Info.declines, *]
  | separate hk he | remaining hk he => rcases hk with hk | hk <;> simp [Info.declines, *]

/-! The pieces between commas. -/

lemma commaPieces_flatMap {vs : List Str} (h : ∀ v ∈ vs, v ≠ [] ∧ comma ∉ v) :
    commaPieces (vs.flatMap (comma :: ·)) = vs := by
  have hsplit := splitOn_append_flatMap (List.not_mem_nil : comma ∉ ([] : Str)) fun v hv =>
    (h v hv).2
  rw [List.nil_append] at hsplit
  rw [commaPieces, hsplit, List.filter_cons_of_neg (by simp), List.filter_eq_self]
  intro v hv
  simpa using (h v hv).1

lemma mem_commaPieces {str v : Str} (h : v ∈ commaPieces str) : v ≠ [] ∧ comma ∉ v := by
  obtain ⟨hmem, hne⟩ := List.mem_filter.mp h
  exact ⟨by simpa using hne, not_mem_of_mem_splitOn str v hmem⟩

lemma flatten_commaPieces (str : Str) : (commaPieces str).flatten = str.filter (· ≠ comma) := by
  rw [commaPieces, List.flatten_filter_ne_nil, flatten_splitOn]

end Catter.Opt
