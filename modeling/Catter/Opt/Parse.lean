import Catter.Opt.Search

/-! The loop of `internal_parse_args`, first on indices into the arguments, as in
the source, and then on the list of arguments that are left. -/

namespace Catter.Opt

open Text

variable (t : OptTable)

structure ParseResult where
  args : List ParsedArgument := []
  missingArgIndex : ℕ := 0
  missingArgCount : ℕ := 0
deriving DecidableEq

def ParseResult.emit (a : ParsedArgument) (r : ParseResult) : ParseResult :=
  { r with args := a :: r.args }

def inputsFrom (index : ℕ) : List Str → List ParsedArgument
  | [] => []
  | str :: following => plain t.inputOptionId str index :: inputsFrom (index + 1) following

def dashDashArgs (index : ℕ) (following : List Str) : List ParsedArgument :=
  if t.dashDashAsSinglePack then [⟨t.inputOptionId, dashDash, following, index, none, none⟩]
  else inputsFrom t (index + 1) following

def parseLoop (excludeOption : Info → Bool) : ℕ → List Str → ℕ → Except Failure ParseResult
  | 0, _, _ => .error .outOfFuel
  | fuel + 1, argv, index =>
    let str := argv.getD index []
    if argv.length ≤ index then .ok {}
    else if str = [] then parseLoop excludeOption fuel argv (index + 1)
    else if t.dashDashParsing ∧ str = dashDash then
      .ok { args := dashDashArgs t index (argv.drop (index + 1)) }
    else
      let parsed :=
        if t.groupedShortOptions then parseOneArgGrouped t argv index
        else .ok (argv, internalParseOneArg t excludeOption argv index)
      match parsed with
      | .error e => .error e
      | .ok (_, none, index') => .ok ⟨[], index, index' - index - 1⟩
      | .ok (argv', some a, index') =>
          (parseLoop excludeOption fuel argv' index').map (ParseResult.emit a)

-- Every step moves the index or shortens the current argument.
def parseFuel (argv : List Str) : ℕ := (argv.map fun str => str.length + 1).sum + 1

def internalParseArgs (excludeOption : Info → Bool) (argv : List Str) :
    Except Failure ParseResult :=
  parseLoop t excludeOption (parseFuel argv) argv 0

def hiddenFrom (visibilityMask : ℕ) (i : Info) : Bool := i.visibility &&& visibilityMask = 0

def outsideFlags (flagsToInclude flagsToExclude : ℕ) (i : Info) : Bool :=
  (flagsToInclude ≠ 0 ∧ i.flags &&& flagsToInclude = 0) ∨ i.flags &&& flagsToExclude ≠ 0

def parseArgs (visibilityMask : ℕ) (argv : List Str) : Except Failure ParseResult :=
  internalParseArgs t (hiddenFrom visibilityMask) argv

def parseArgsByFlags (flagsToInclude flagsToExclude : ℕ) (argv : List Str) :
    Except Failure ParseResult :=
  internalParseArgs t (outsideFlags flagsToInclude flagsToExclude) argv

/-! Without grouped short options the arguments stay as they are. -/

def parseFrom (excludeOption : Info → Bool) (index : ℕ) : List Str → ParseResult
  | [] => {}
  | str :: following =>
    if str = [] then parseFrom excludeOption (index + 1) following
    else if t.dashDashParsing ∧ str = dashDash then { args := dashDashArgs t index following }
    else match takeOne t excludeOption index str following with
      | (none, n) => ⟨[], index, n - 1⟩
      | (some a, n) => (parseFrom excludeOption (index + n) (following.drop (n - 1))).emit a
termination_by argv => argv.length
decreasing_by all_goals simp only [List.length_cons, List.length_drop]; omega

lemma parseFrom_stop {excludeOption : Info → Bool} (hdd : t.dashDashParsing = true) (index : ℕ)
    (following : List Str) :
    parseFrom t excludeOption index (dashDash :: following) =
      { args := dashDashArgs t index following } := by
  rw [parseFrom, if_neg (by decide), if_pos ⟨hdd, rfl⟩]

lemma parseFrom_missing {excludeOption : Info → Bool} {index n : ℕ} {str : Str}
    {following : List Str}
    (hs : str ≠ []) (hdd : ¬ (t.dashDashParsing = true ∧ str = dashDash))
    (h : takeOne t excludeOption index str following = (none, n)) :
    parseFrom t excludeOption index (str :: following) = ⟨[], index, n - 1⟩ := by
  rw [parseFrom, if_neg hs, if_neg hdd, h]

lemma parseFrom_emit {excludeOption : Info → Bool} {index n : ℕ} {str : Str} {following : List Str}
    {a : ParsedArgument} (hs : str ≠ []) (hdd : ¬ (t.dashDashParsing = true ∧ str = dashDash))
    (h : takeOne t excludeOption index str following = (some a, n)) :
    parseFrom t excludeOption index (str :: following) =
      (parseFrom t excludeOption (index + n) (following.drop (n - 1))).emit a := by
  rw [parseFrom, if_neg hs, if_neg hdd, h]

lemma drop_eq_getD_cons {argv : List Str} {index : ℕ} (hlt : index < argv.length) :
    argv.drop index = argv.getD index [] :: argv.drop (index + 1) := by
  rw [List.drop_eq_getElem_cons hlt, List.getD_eq_getElem?_getD, List.getElem?_eq_getElem hlt,
    Option.getD_some]

lemma parseLoop_eq (excludeOption : Info → Bool) (hg : t.groupedShortOptions = false)
    (argv : List Str)
    (fuel index : ℕ) (h : argv.length - index < fuel) :
    parseLoop t excludeOption fuel argv index =
      .ok (parseFrom t excludeOption index (argv.drop index)) := by
  induction fuel generalizing index with
  | zero => omega
  | succ fuel ih =>
    rw [parseLoop]
    by_cases hend : argv.length ≤ index
    · rw [if_pos hend, List.drop_eq_nil_of_le hend, parseFrom]
    · have hlt : index < argv.length := by omega
      rw [if_neg hend, drop_eq_getD_cons hlt, parseFrom]
      by_cases hempty : argv.getD index [] = []
      · rw [if_pos hempty, if_pos hempty]
        apply ih
        omega
      · rw [if_neg hempty, if_neg hempty]
        by_cases hdd : t.dashDashParsing = true ∧ argv.getD index [] = dashDash
        · rw [if_pos hdd, if_pos hdd]
        · rw [if_neg hdd, if_neg hdd]
          simp only [hg, internalParseOneArg_eq t excludeOption argv index hlt,
            if_neg Bool.false_ne_true]
          have hpos := takeOne_pos t excludeOption index (argv.getD index [])
            (argv.drop (index + 1))
          cases htaken :
            takeOne t excludeOption index (argv.getD index []) (argv.drop (index + 1)) with
          | mk a n =>
            rw [htaken] at hpos
            cases a with
            | none => simp
            | some a =>
              have hadvance : index + 1 + (n - 1) = index + n := by
                simp only at hpos
                omega
              simp only [List.drop_drop, hadvance]
              rw [ih (index + n) (by simp only at hpos; omega)]
              rfl

lemma length_lt_parseFuel (argv : List Str) : argv.length < parseFuel argv := by
  have hsum : (argv.map fun _ => 1).sum ≤ (argv.map fun str => str.length + 1).sum :=
    List.sum_le_sum fun str _ => Nat.le_add_left 1 str.length
  simp only [List.map_const', List.sum_replicate, smul_eq_mul, mul_one] at hsum
  exact Nat.lt_succ_of_le hsum

theorem internalParseArgs_eq (excludeOption : Info → Bool) (hg : t.groupedShortOptions = false)
    (argv : List Str) :
    internalParseArgs t excludeOption argv = .ok (parseFrom t excludeOption 0 argv) := by
  have hfuel := length_lt_parseFuel argv
  apply parseLoop_eq t excludeOption hg argv
  omega

/-! Two runs that go alike: `key` is what both see of an argument, `obs` what is compared of a
result. -/

section Alike

variable {κ β : Type}

def ParseResult.view (obs : ParsedArgument → β) (r : ParseResult) : List β × ℕ × ℕ :=
  (r.args.map obs, r.missingArgIndex, r.missingArgCount)

structure StepsAlike (t t' : OptTable) (excludeOption excludeOption' : Info → Bool) (key : Str → κ)
    (obs : ParsedArgument → β) : Prop where
  parsing : t.dashDashParsing = t'.dashDashParsing
  empty : ∀ str str', key str = key str' → (str = [] ↔ str' = [])
  stop : ∀ str str', key str = key str' → (str = dashDash ↔ str' = dashDash)
  passed : ∀ index following following', following.map key = following'.map key →
    (dashDashArgs t index following).map obs = (dashDashArgs t' index following').map obs
  taken : ∀ index str str' following following', key str = key str' →
    following.map key = following'.map key →
    (takeOne t excludeOption index str following).1.map obs =
        (takeOne t' excludeOption' index str' following').1.map obs ∧
      (takeOne t excludeOption index str following).2 =
        (takeOne t' excludeOption' index str' following').2

lemma StepsAlike.at_option {t t' : OptTable} {excludeOption excludeOption' : Info → Bool}
    {key : Str → κ}
    {obs : ParsedArgument → β} (h : StepsAlike t t' excludeOption excludeOption' key obs)
    {str str' : Str}
    (hkey : key str = key str') (hs : str ≠ [])
    (hdd : ¬ (t.dashDashParsing = true ∧ str = dashDash)) :
    str' ≠ [] ∧ ¬ (t'.dashDashParsing = true ∧ str' = dashDash) := by
  constructor
  · exact mt (h.empty _ _ hkey).mpr hs
  · rwa [← h.parsing, ← h.stop _ _ hkey]

lemma StepsAlike.parseFrom_view {t t' : OptTable} {excludeOption excludeOption' : Info → Bool}
    {key : Str → κ}
    {obs : ParsedArgument → β} (h : StepsAlike t t' excludeOption excludeOption' key obs)
    (index : ℕ)
    {argv argv' : List Str} (hargv : argv.map key = argv'.map key) :
    (parseFrom t excludeOption index argv).view obs =
      (parseFrom t' excludeOption' index argv').view obs := by
  induction index, argv using parseFrom.induct t excludeOption generalizing argv' with
  | case1 index =>
    cases argv' with
    | nil => rw [parseFrom, parseFrom]
    | cons str' following' => cases hargv
  | case2 index following ih =>
    cases argv' with
    | nil => cases hargv
    | cons str' following' =>
      obtain ⟨hkey, hrest⟩ := List.cons.inj hargv
      rw [parseFrom, if_pos rfl, parseFrom, if_pos ((h.empty _ _ hkey).mp rfl)]
      exact ih hrest
  | case3 index str following hs hdd =>
    cases argv' with
    | nil => cases hargv
    | cons str' following' =>
      obtain ⟨hkey, hrest⟩ := List.cons.inj hargv
      obtain ⟨hmode, rfl⟩ := hdd
      have hmode' : t'.dashDashParsing = true := h.parsing ▸ hmode
      obtain rfl := (h.stop _ str' hkey).mp rfl
      rw [parseFrom_stop t hmode, parseFrom_stop t' hmode', ParseResult.view, ParseResult.view,
        h.passed index following following' hrest]
  | case4 index str following hs hdd n hstep =>
    cases argv' with
    | nil => cases hargv
    | cons str' following' =>
      obtain ⟨hkey, hrest⟩ := List.cons.inj hargv
      obtain ⟨hs', hdd'⟩ := h.at_option hkey hs hdd
      have htaken := h.taken index str str' following following' hkey hrest
      rw [hstep] at htaken
      cases hstep' : takeOne t' excludeOption' index str' following' with
      | mk a' n' =>
        rw [hstep'] at htaken
        obtain ⟨hobs, rfl⟩ := htaken
        obtain rfl : a' = none := by simpa using hobs.symm
        rw [parseFrom_missing t hs hdd hstep, parseFrom_missing t' hs' hdd' hstep']
  | case5 index str following hs hdd a n hstep ih =>
    cases argv' with
    | nil => cases hargv
    | cons str' following' =>
      obtain ⟨hkey, hrest⟩ := List.cons.inj hargv
      obtain ⟨hs', hdd'⟩ := h.at_option hkey hs hdd
      have htaken := h.taken index str str' following following' hkey hrest
      rw [hstep] at htaken
      cases hstep' : takeOne t' excludeOption' index str' following' with
      | mk a' n' =>
        rw [hstep'] at htaken
        obtain ⟨hobs, rfl⟩ := htaken
        obtain ⟨b, rfl, hb⟩ := Option.map_eq_some_iff.mp hobs.symm
        have hdrop : (following.drop (n - 1)).map key = (following'.drop (n - 1)).map key := by
          rw [List.map_drop, List.map_drop, hrest]
        have hview := ih hdrop
        rw [parseFrom_emit t hs hdd hstep, parseFrom_emit t' hs' hdd' hstep']
        simp only [ParseResult.view, Prod.mk.injEq] at hview
        simp only [ParseResult.view, ParseResult.emit, List.map_cons, hb, hview]

end Alike

end Catter.Opt
