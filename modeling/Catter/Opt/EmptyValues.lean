import Catter.Opt.Parse

/-! Empty strings as values: `internal_parse_args` with its assertions, and the reading
of the arguments in which an option takes what it needs whatever the text. -/

namespace Catter.Opt

open Text

variable (t : OptTable)

inductive Assertion
  | failedToConsume
  | unexpectedParserError
  | noMissingArguments
deriving DecidableEq

inductive Stopped
  | failure (e : Failure)
  | assertion (e : Assertion)
deriving DecidableEq

def assertingLoop (excludeOption : Info → Bool) : ℕ → List Str → ℕ → Except Stopped ParseResult
  | 0, _, _ => .error (.failure .outOfFuel)
  | fuel + 1, argv, index =>
    let str := argv.getD index []
    if argv.length ≤ index then .ok {}
    else if str = [] then assertingLoop excludeOption fuel argv (index + 1)
    else if t.dashDashParsing ∧ str = dashDash then
      .ok { args := dashDashArgs t index (argv.drop (index + 1)) }
    else
      let parsed :=
        if t.groupedShortOptions then parseOneArgGrouped t argv index
        else .ok (argv, internalParseOneArg t excludeOption argv index)
      match parsed with
      | .error e => .error (.failure e)
      | .ok (argv', a, index') =>
        if index ≥ index' ∧ ¬ t.groupedShortOptions then .error (.assertion .failedToConsume)
        else match a with
          | none =>
            if index' < argv.length then .error (.assertion .unexpectedParserError)
            else if index' - index - 1 = 0 then .error (.assertion .noMissingArguments)
            else .ok ⟨[], index, index' - index - 1⟩
          | some a => (assertingLoop excludeOption fuel argv' index').map (ParseResult.emit a)

def assertingParseArgs (excludeOption : Info → Bool) (argv : List Str) :
    Except Stopped ParseResult :=
  assertingLoop t excludeOption (parseFuel argv) argv 0

theorem assertingLoop_ok {excludeOption : Info → Bool} {fuel index : ℕ} {argv : List Str}
    {r : ParseResult}
    (h : assertingLoop t excludeOption fuel argv index = .ok r) :
    parseLoop t excludeOption fuel argv index = .ok r := by
  induction fuel generalizing argv index r with
  | zero => simp [assertingLoop] at h
  | succ fuel ih =>
    rw [assertingLoop] at h
    rw [parseLoop]
    by_cases hend : argv.length ≤ index
    · simpa only [if_pos hend, Except.ok.injEq] using h
    · by_cases hempty : argv.getD index [] = []
      · simp only [if_neg hend, if_pos hempty] at h ⊢
        exact ih h
      · by_cases hdd : t.dashDashParsing = true ∧ argv.getD index [] = dashDash
        · simpa only [if_neg hend, if_neg hempty, if_pos hdd, Except.ok.injEq] using h
        · simp only [if_neg hend, if_neg hempty, if_neg hdd] at h ⊢
          generalize (if t.groupedShortOptions = true then parseOneArgGrouped t argv index
            else .ok (argv, internalParseOneArg t excludeOption argv index)) = parsed at h ⊢
          cases parsed with
          | error e => simp at h
          | ok p =>
            obtain ⟨argv', a, index'⟩ := p
            by_cases hstuck : index ≥ index' ∧ ¬ t.groupedShortOptions = true
            · simp only [if_pos hstuck] at h
              cases h
            · simp only [if_neg hstuck] at h
              cases a with
              | none =>
                simp only at h ⊢
                split_ifs at h
                rw [Except.ok.inj h]
              | some a =>
                simp only at h ⊢
                cases hrest : assertingLoop t excludeOption fuel argv' index' with
                | error e => simp [hrest, Except.map] at h
                | ok rest =>
                  rw [ih hrest]
                  rw [hrest] at h
                  simpa [Except.map] using h

/-! What an option is meant to take: what its own argument holds for it, and as many of
the elements that follow as it needs. -/

def Info.attached (i : Info) (size : ℕ) (arg : Str) : List Str :=
  match i.kind with
  | .joined | .joinedAndSeparate => [arg.drop size]
  | .commaJoined => commaPieces (arg.drop size)
  | .joinedOrSeparate | .remainingArgsJoined => if size ≠ arg.length then [arg.drop size] else []
  | _ => []

def Info.wants (i : Info) (size argSize following : ℕ) : ℕ :=
  match i.kind with
  | .separate | .joinedAndSeparate => 1
  | .joinedOrSeparate => if size ≠ argSize then 0 else 1
  | .multiArg => i.param
  | .remainingArgs | .remainingArgsJoined => following
  | _ => 0

def intended (i : Info) (size : ℕ) (arg : Str) (following : List Str) : Option (List Str) × ℕ :=
  let n := i.wants size arg.length following.length
  (if following.length < n then none else some (i.attached size arg ++ following.take n), 1 + n)

def intendedOne (excludeOption : Info → Bool) (index : ℕ) (str : Str) (following : List Str) :
    Option ParsedArgument × ℕ :=
  if isInput t str then (some (plain t.inputOptionId str index), 1)
  else match t.taking excludeOption str with
    | none => (some (plain (untaken t str) str index), 1)
    | some p =>
      let taken := intended p.1 p.2 str following
      (taken.1.map fun values => found t p.1 (str.take p.2) values index, taken.2)

def intendedFrom (excludeOption : Info → Bool) (index : ℕ) : List Str → ParseResult
  | [] => {}
  | str :: following =>
    if str = [] then intendedFrom excludeOption (index + 1) following
    else if t.dashDashParsing ∧ str = dashDash then { args := dashDashArgs t index following }
    else match intendedOne t excludeOption index str following with
      | (none, n) => ⟨[], index, n - 1⟩
      | (some a, n) => (intendedFrom excludeOption (index + n) (following.drop (n - 1))).emit a
termination_by argv => argv.length
decreasing_by all_goals simp only [List.length_cons, List.length_drop]; omega

def intendedPositions (excludeOption : Info → Bool) (index : ℕ) : List Str → List (Str × List Str)
  | [] => []
  | str :: following =>
    if str = [] then intendedPositions excludeOption (index + 1) following
    else if t.dashDashParsing ∧ str = dashDash then []
    else (str, following) :: match intendedOne t excludeOption index str following with
      | (none, _) => []
      | (some _, n) => intendedPositions excludeOption (index + n) (following.drop (n - 1))
termination_by argv => argv.length
decreasing_by all_goals simp only [List.length_cons, List.length_drop]; omega

-- An option, not one of kind `MultiArg`, is given an empty string among the elements behind it.
def emptyValue (excludeOption : Info → Bool) (q : Str × List Str) : Bool :=
  !isInput t q.1 && (t.taking excludeOption q.1).any fun p =>
    p.1.kind ≠ .multiArg && ((q.2.take (p.1.wants p.2 q.1.length q.2.length)).contains [])

lemma consume_eq_intended {i : Info} {size : ℕ} {arg : Str} {following : List Str}
    (hd : i.declines size arg.length = false)
    (h : i.kind = .multiArg ∨ [] ∉ following.take (i.wants size arg.length following.length)) :
    consume i size arg following = intended i size arg following := by
  cases hk : i.kind with
  | group | input | unknown | values => simp [Info.declines, hk] at hd
  | joined | commaJoined => simp [consume, intended, Info.wants, Info.attached, hk]
  | flag =>
    simp only [Info.declines, hk, decide_eq_false_iff_not] at hd
    simp [consume, intended, Info.wants, Info.attached, hk, if_neg hd]
  | multiArg =>
    simp only [Info.declines, hk, decide_eq_false_iff_not] at hd
    simp only [consume, intended, Info.wants, Info.attached, hk, if_neg hd, List.nil_append]
    split_ifs <;> rfl
  | separate | joinedAndSeparate =>
    simp only [Info.declines, hk, decide_eq_false_iff_not] at hd
    simp only [Info.wants, hk, reduceCtorEq, false_or] at h
    cases following with
    | nil => simp_all [consume, intended, Info.wants]
    | cons next rest =>
      have hnext : next ≠ [] := by simpa [eq_comm] using h
      simp_all [consume, intended, Info.wants, Info.attached]
  | joinedOrSeparate =>
    simp only [Info.wants, hk, reduceCtorEq, false_or] at h
    by_cases he : size = arg.length
    · cases following with
      | nil => simp [consume, intended, Info.wants, hk, he]
      | cons next rest =>
        have hnext : next ≠ [] := by simpa [he, eq_comm] using h
        simp [consume, intended, Info.wants, Info.attached, hk, he, hnext]
    · simp [consume, intended, Info.wants, Info.attached, hk, he]
  | remainingArgs | remainingArgsJoined =>
    simp only [Info.wants, hk, reduceCtorEq, false_or, List.take_length] at h
    have hall : following.takeWhile (· ≠ []) = following := by
      rw [List.takeWhile_eq_self_iff]
      intro s hs
      simpa using ne_of_mem_of_not_mem hs h
    simp only [Info.declines, hk, decide_eq_false_iff_not] at hd
    simp only [consume, intended, Info.wants, Info.attached, hk, hall]
    simp_all

lemma consume_ne_intended {i : Info} {size : ℕ} {arg : Str} {following : List Str}
    (hd : i.declines size arg.length = false) (hk : i.kind ≠ .multiArg)
    (h : [] ∈ following.take (i.wants size arg.length following.length)) :
    (intended i size arg following).1.isSome ∧
      (consume i size arg following).1 ≠ (intended i size arg following).1 := by
  cases hkind : i.kind with
  | multiArg => exact absurd hkind hk
  | group | input | unknown | values | flag | joined | commaJoined => simp [Info.wants, hkind] at h
  | separate | joinedAndSeparate =>
    simp only [Info.wants, hkind] at h
    simp only [Info.declines, hkind, decide_eq_false_iff_not] at hd
    cases following with
    | nil => simp at h
    | cons next rest =>
      obtain rfl : [] = next := by simpa using h
      simp_all [consume, intended, Info.wants]
  | joinedOrSeparate =>
    simp only [Info.wants, hkind] at h
    cases following with
    | nil => simp at h
    | cons next rest =>
      by_cases he : size = arg.length
      · obtain rfl : [] = next := by simpa [he] using h
        simp [consume, intended, Info.wants, hkind, he]
      · simp [he] at h
  | remainingArgs | remainingArgsJoined =>
    simp only [Info.wants, hkind, List.take_length] at h
    have hshort : following.takeWhile (· ≠ []) ≠ following := by
      intro hall
      have hne := List.takeWhile_eq_self_iff.mp hall [] h
      simp at hne
    simp only [Info.declines, hkind, decide_eq_false_iff_not] at hd
    simp only [consume, intended, Info.wants, Info.attached, hkind]
    simp_all

lemma takeOne_eq_intended {excludeOption : Info → Bool} {str : Str} {following : List Str}
    (index : ℕ)
    (h : emptyValue t excludeOption (str, following) = false) :
    takeOne t excludeOption index str following =
      intendedOne t excludeOption index str following := by
  rw [takeOne, intendedOne]
  by_cases hin : isInput t str = true
  · rw [if_pos hin, if_pos hin]
  · rw [if_neg hin, if_neg hin]
    cases ht : t.taking excludeOption str with
    | none => rfl
    | some p =>
      obtain ⟨-, -, -, -, hd⟩ := taking_some t ht
      have hordinary : p.1.kind = .multiArg ∨
          [] ∉ following.take (p.1.wants p.2 str.length following.length) := by
        simpa [emptyValue, hin, ht, or_iff_not_imp_left] using h
      simp only [takeWith, consume_eq_intended hd hordinary]

lemma takeOne_ne_intended {excludeOption : Info → Bool} {str : Str} {following : List Str}
    (index : ℕ)
    (h : emptyValue t excludeOption (str, following) = true) :
    ∃ a n, intendedOne t excludeOption index str following = (some a, n) ∧
      (takeOne t excludeOption index str following).1 ≠ some a := by
  cases hin : isInput t str with
  | true => simp [emptyValue, hin] at h
  | false =>
    cases ht : t.taking excludeOption str with
    | none => simp [emptyValue, ht] at h
    | some p =>
      obtain ⟨-, -, -, -, hd⟩ := taking_some t ht
      obtain ⟨hk, hempty⟩ : p.1.kind ≠ .multiArg ∧
          [] ∈ following.take (p.1.wants p.2 str.length following.length) := by
        simpa [emptyValue, hin, ht] using h
      obtain ⟨hsome, hne⟩ := consume_ne_intended hd hk hempty
      obtain ⟨values, hvalues⟩ := Option.isSome_iff_exists.mp hsome
      refine ⟨found t p.1 (str.take p.2) values index, (intended p.1 p.2 str following).2, ?_, ?_⟩
      · simp [intendedOne, hin, ht, hvalues]
      · simp only [takeOne, hin, ht, takeWith, Bool.false_eq_true, if_false, ne_eq]
        intro hsame
        obtain ⟨values', hvalues', hfound⟩ := Option.map_eq_some_iff.mp hsame
        have heq : values' = values := by simpa [found] using congrArg ParsedArgument.values hfound
        exact hne (by rw [hvalues', hvalues, heq])

lemma intendedOne_missing {excludeOption : Info → Bool} {index n : ℕ} {str : Str}
    {following : List Str}
    (h : intendedOne t excludeOption index str following = (none, n)) :
    2 ≤ n ∧ following.length < n := by
  rw [intendedOne] at h
  split_ifs at h
  · simp at h
  · cases ht : t.taking excludeOption str with
    | none => simp [ht] at h
    | some p =>
      simp only [ht, intended, Prod.mk.injEq, Option.map_eq_none_iff, ite_eq_left_iff, reduceCtorEq,
        imp_false,
        not_not] at h
      omega

lemma map_emit_eq_ok {e : Except Stopped ParseResult} {a : ParsedArgument} {r : ParseResult} :
    e.map (ParseResult.emit a) = .ok r ↔ ∃ rest, e = .ok rest ∧ rest.emit a = r := by
  cases e with
  | error e => simp [Except.map]
  | ok rest => simp [Except.map]

lemma emit_injective (a : ParsedArgument) : Function.Injective (ParseResult.emit a) := by
  intro r s h
  cases r
  cases s
  simpa [ParseResult.emit] using h

section AtOption

variable {excludeOption : Info → Bool} {argv : List Str} {index : ℕ} (fuel : ℕ)
  (hg : t.groupedShortOptions = false) (hlt : index < argv.length) (hs : argv.getD index [] ≠ [])
  (hdd : ¬ (t.dashDashParsing = true ∧ argv.getD index [] = dashDash))

include hg hlt hs hdd

lemma assertingLoop_step :
    assertingLoop t excludeOption (fuel + 1) argv index =
      match takeOne t excludeOption index (argv.getD index []) (argv.drop (index + 1)) with
      | (none, n) =>
        if index + n < argv.length then .error (.assertion .unexpectedParserError)
        else .ok ⟨[], index, n - 1⟩
      | (some a, n) => (assertingLoop t excludeOption fuel argv (index + n)).map
        (ParseResult.emit a) := by
  have hpos := takeOne_pos t excludeOption index (argv.getD index []) (argv.drop (index + 1))
  rw [assertingLoop]
  simp only [if_neg (not_le.mpr hlt), if_neg hs, if_neg hdd, hg,
    internalParseOneArg_eq t excludeOption argv index hlt]
  cases htaken : takeOne t excludeOption index (argv.getD index []) (argv.drop (index + 1)) with
  | mk a n =>
    rw [htaken] at hpos
    have hadvance : ¬ (index ≥ index + n) := by
      simp only at hpos
      omega
    cases a with
    | some a => simp [hadvance]
    | none =>
      have hcount := takeOne_none_count t htaken
      have hmissing : index + n - index - 1 = n - 1 := by omega
      have hnonzero : n - 1 ≠ 0 := by omega
      simp [hadvance, hnonzero]

lemma assertingLoop_empty_value
    (he : emptyValue t excludeOption (argv.getD index [], argv.drop (index + 1)) = true) :
    assertingLoop t excludeOption (fuel + 1) argv index ≠
      .ok (intendedFrom t excludeOption index (argv.drop index)) := by
  obtain ⟨a, n, hintended, hne⟩ := takeOne_ne_intended t index he
  rw [assertingLoop_step t fuel hg hlt hs hdd, drop_eq_getD_cons hlt, intendedFrom]
  simp only [if_neg hs, if_neg hdd, hintended]
  intro hsame
  cases htaken : takeOne t excludeOption index (argv.getD index []) (argv.drop (index + 1)) with
  | mk a' n' =>
    rw [htaken] at hsame hne
    cases a' with
    | none =>
      simp only at hsame
      split_ifs at hsame
      simp [ParseResult.emit] at hsame
    | some a' =>
      obtain ⟨rest, -, hrest⟩ := map_emit_eq_ok.mp hsame
      exact hne (congrArg some (List.cons.inj (congrArg ParseResult.args hrest)).1)

lemma assertingLoop_last {n : ℕ}
    (he : emptyValue t excludeOption (argv.getD index [], argv.drop (index + 1)) = false)
    (hintended : intendedOne t excludeOption index (argv.getD index []) (argv.drop (index + 1)) =
      (none, n)) :
    assertingLoop t excludeOption (fuel + 1) argv index =
      .ok (intendedFrom t excludeOption index (argv.drop index)) := by
  obtain ⟨-, hfew⟩ := intendedOne_missing t hintended
  have hend : ¬ index + n < argv.length := by
    rw [List.length_drop] at hfew
    omega
  rw [assertingLoop_step t fuel hg hlt hs hdd, takeOne_eq_intended t index he,
    drop_eq_getD_cons hlt, intendedFrom]
  simp only [if_neg hs, if_neg hdd, hintended, if_neg hend]

lemma assertingLoop_next {a : ParsedArgument} {n : ℕ}
    (he : emptyValue t excludeOption (argv.getD index [], argv.drop (index + 1)) = false)
    (hintended : intendedOne t excludeOption index (argv.getD index []) (argv.drop (index + 1)) =
      (some a, n)) :
    0 < n ∧ (assertingLoop t excludeOption (fuel + 1) argv index =
        .ok (intendedFrom t excludeOption index (argv.drop index)) ↔
      assertingLoop t excludeOption fuel argv (index + n) =
        .ok (intendedFrom t excludeOption (index + n) (argv.drop (index + n)))) := by
  have htaken := (takeOne_eq_intended t index he).trans hintended
  have hpos : 0 < n := by
    have hpos := takeOne_pos t excludeOption index (argv.getD index []) (argv.drop (index + 1))
    rwa [htaken] at hpos
  have hadvance : index + 1 + (n - 1) = index + n := by omega
  refine ⟨hpos, ?_⟩
  rw [assertingLoop_step t fuel hg hlt hs hdd, htaken, drop_eq_getD_cons hlt, intendedFrom]
  simp only [if_neg hs, if_neg hdd, hintended, List.drop_drop, hadvance, map_emit_eq_ok]
  constructor
  · rintro ⟨rest, hloop, hemit⟩
    rw [hloop, emit_injective a hemit]
  · intro hloop
    exact ⟨_, hloop, rfl⟩

end AtOption

theorem assertingLoop_intended_iff {excludeOption : Info → Bool}
    (hg : t.groupedShortOptions = false)
    (argv : List Str) (fuel index : ℕ) (h : argv.length - index < fuel) :
    assertingLoop t excludeOption fuel argv index =
      .ok (intendedFrom t excludeOption index (argv.drop index)) ↔
      ∀ q ∈ intendedPositions t excludeOption index (argv.drop index),
        emptyValue t excludeOption q = false := by
  induction fuel generalizing index with
  | zero => omega
  | succ fuel ih =>
    by_cases hend : argv.length ≤ index
    · simp [assertingLoop, hend, List.drop_eq_nil_of_le hend, intendedFrom, intendedPositions]
    · have hlt : index < argv.length := by omega
      by_cases hempty : argv.getD index [] = []
      · rw [assertingLoop, drop_eq_getD_cons hlt, intendedFrom, intendedPositions]
        simp only [if_neg hend, if_pos hempty]
        apply ih
        omega
      · by_cases hdd : t.dashDashParsing = true ∧ argv.getD index [] = dashDash
        · rw [assertingLoop, drop_eq_getD_cons hlt, intendedFrom, intendedPositions]
          simp only [if_neg hend, if_neg hempty, if_pos hdd]
          exact iff_of_true trivial (List.forall_mem_nil _)
        · have hcons := drop_eq_getD_cons hlt
          cases he : emptyValue t excludeOption (argv.getD index [], argv.drop (index + 1)) with
          | true =>
            have hmet : (argv.getD index [], argv.drop (index + 1)) ∈
                intendedPositions t excludeOption index (argv.drop index) := by
              rw [hcons, intendedPositions, if_neg hempty, if_neg hdd]
              exact List.mem_cons_self
            apply iff_of_false (assertingLoop_empty_value t fuel hg hlt hempty hdd he)
            intro hnone
            rw [hnone _ hmet] at he
            cases he
          | false =>
            cases hintended :
              intendedOne t excludeOption index (argv.getD index []) (argv.drop (index + 1)) with
            | mk a n =>
              cases a with
              | none =>
                have hpositions : intendedPositions t excludeOption index (argv.drop index) =
                    [(argv.getD index [], argv.drop (index + 1))] := by
                  rw [hcons, intendedPositions]
                  simp only [if_neg hempty, if_neg hdd, hintended]
                rw [hpositions, List.forall_mem_singleton]
                exact iff_of_true (assertingLoop_last t fuel hg hlt hempty hdd he hintended) he
              | some a =>
                obtain ⟨hpos, hnext⟩ := assertingLoop_next t fuel hg hlt hempty hdd he hintended
                have hadvance : index + 1 + (n - 1) = index + n := by omega
                have hpositions : intendedPositions t excludeOption index (argv.drop index) =
                    (argv.getD index [], argv.drop (index + 1)) ::
                      intendedPositions t excludeOption (index + n) (argv.drop (index + n)) := by
                  rw [hcons, intendedPositions]
                  simp only [if_neg hempty, if_neg hdd, hintended, List.drop_drop, hadvance]
                rw [hnext, ih (index + n) (by omega), hpositions, List.forall_mem_cons]
                exact (and_iff_right he).symm

def intendedParseArgs (excludeOption : Info → Bool) (argv : List Str) : ParseResult :=
  intendedFrom t excludeOption 0 argv

-- Options take their values whatever the text, and no assertion fails, exactly on the argument
-- vectors in which no option but one of kind `MultiArg` is given an empty string.
theorem empty_values_ordinary_iff (hg : t.groupedShortOptions = false) (excludeOption : Info → Bool)
    (argv : List Str) :
    assertingParseArgs t excludeOption argv = .ok (intendedParseArgs t excludeOption argv) ↔
      ∀ q ∈ intendedPositions t excludeOption 0 argv, emptyValue t excludeOption q = false := by
  have hfuel := length_lt_parseFuel argv
  apply assertingLoop_intended_iff t hg argv
  omega

def outputTable : OptTable where
  optionInfos := [.input 1, .unknown 2, .unaliasedOne [dash] (lit "-save") 3 .separate 1,
    .unaliasedOne [dash] (lit "-pair") 4 .multiArg 2]

theorem outputTable_empty_definition :
    assertingParseArgs outputTable (fun _ => false) [lit "-pair", [], lit "x", [], lit "-save",
      lit "f"] =
      .ok (intendedParseArgs outputTable
        (fun _ => false) [lit "-pair", [], lit "x", [], lit "-save", lit "f"]) :=
  (empty_values_ordinary_iff outputTable rfl _ _).mpr (by decide +kernel)

theorem outputTable_empty_output_stops :
    ¬ ∀ t : OptTable, t.groupedShortOptions = false →
      ∀ (excludeOption : Info → Bool) (argv : List Str),
      assertingParseArgs t excludeOption argv = .ok (intendedParseArgs t excludeOption argv) := by
  intro hclaim
  have hparse := hclaim outputTable rfl (fun _ => false) [lit "-save", [], lit "x"]
  have hstop : assertingParseArgs outputTable (fun _ => false) [lit "-save", [], lit "x"] =
      .error (.assertion .unexpectedParserError) := by decide
  rw [hstop] at hparse
  cases hparse

end Catter.Opt
