import Catter.Opt.Longest
import Catter.Opt.Parse

/-! The option table of catter-proxy, and what it accepts. -/

namespace Catter.Opt

open Text

def catterProxyOptTable : OptTable where
  optionInfos := [.input 1, .unknown 2, .unaliasedOne [dash] (lit "-p") 3 .separate 1,
    .unaliasedOne [dash, dashDash] (lit "--exec") 4 .separate 1]
  dashDashParsing := true

-- The id of the entry that takes the argument, or misses its value, and otherwise of what is
-- emitted.
def metAs (t : OptTable) (excludeOption : Info → Bool) (argv : List Str) (index : ℕ) : Option ℕ :=
  match stopsAt t excludeOption argv index with
  | some o => some o.id
  | none => (internalParseOneArg t excludeOption argv index).1.map ParsedArgument.optionId

def optInput : ℕ := 1

def optUnknown : ℕ := 2

def optParentId : ℕ := 3

def optExec : ℕ := 4

structure DeclaredOptions (excludeOption : Info → Bool) (argv : List Str) (index : ℕ) : Prop where
  parent_id : metAs catterProxyOptTable excludeOption argv index = some optParentId ↔
    argv.getD index [] = lit "-p"
  exec : metAs catterProxyOptTable excludeOption argv index = some optExec ↔
    argv.getD index [] = lit "-exec" ∨ argv.getD index [] = lit "--exec"
  input : metAs catterProxyOptTable excludeOption argv index = some optInput ↔
    argv.getD index [] = dash ∨ (argv.getD index []).head? ≠ some dashChar
  unknown : metAs catterProxyOptTable excludeOption argv index = some optUnknown ↔
    ¬ (argv.getD index [] = lit "-p" ∨ argv.getD index [] = lit "-exec" ∨
      argv.getD index [] = lit "--exec" ∨
      argv.getD index [] = dash ∨ (argv.getD index []).head? ≠ some dashChar)

lemma stops_separate (t : OptTable) {excludeOption : Info → Bool} {argv : List Str} {index : ℕ}
    {i : Info}
    (hk : i.kind = .separate) :
    stops t excludeOption argv index i = true ↔ matchOpt i (argv.getD index []) t.ignoreCase ≠ 0 ∧
      excludeOption i = false ∧ matchOpt i (argv.getD index []) t.ignoreCase =
        (argv.getD index []).length := by
  have hlen := List.length_take_of_le (matchOpt_le i (argv.getD index []) t.ignoreCase)
  have hdeclines : acceptAt t argv index i = (none, index) ↔
      matchOpt i (argv.getD index []) t.ignoreCase ≠ (argv.getD index []).length := by
    simp only [acceptAt, accept_ungrouped, acceptInternal, hk, hlen]
    split_ifs with hsize hnext
    · exact iff_of_false (by simp) (not_not.mpr hsize)
    · exact iff_of_false (by simp) (not_not.mpr hsize)
    · exact iff_of_true rfl hsize
  rw [stops_iff]
  exact and_congr_right fun _ => and_congr_right fun _ => (not_congr hdeclines).trans not_not

lemma eq_of_matchOpt_length {i : Info} {str : Str} (h : matchOpt i str false ≠ 0)
    (hlen : matchOpt i str false = str.length) : ∃ pfx ∈ i.prefixes, str = pfx ++ i.name := by
  obtain ⟨pfx, hpfx, ⟨rest, rfl⟩, hname, hsize⟩ := matchOpt_pos h
  rw [List.drop_left] at hname
  have hrest : i.name = rest := by
    apply (List.isPrefixOf_iff_prefix.mp hname).eq_of_length
    rw [hsize, List.length_append] at hlen
    omega
  exact ⟨pfx, hpfx, by rw [hrest]⟩

def parentIdInfo : Info := .unaliasedOne [dash] (lit "-p") 3 .separate 1

def execInfo : Info := .unaliasedOne [dash, dashDash] (lit "--exec") 4 .separate 1

lemma searchable_catterProxyOptTable : catterProxyOptTable.searchable =
    [parentIdInfo, execInfo] := by decide

section Met

variable {excludeOption : Info → Bool} (argv : List Str) (index : ℕ)

lemma stops_parentId (hshown : ∀ i ∈ catterProxyOptTable.searchable, excludeOption i = false) :
    stops catterProxyOptTable excludeOption argv index parentIdInfo = true ↔
      argv.getD index [] = lit "-p" := by
  rw [stops_separate catterProxyOptTable rfl]
  constructor
  · rintro ⟨hsize, -, hlen⟩
    obtain ⟨pfx, hpfx, hstr⟩ := eq_of_matchOpt_length hsize hlen
    obtain rfl := List.mem_singleton.mp hpfx
    rw [hstr]
    decide
  · intro hstr
    rw [hstr]
    exact ⟨by decide, hshown _ (by decide), by decide⟩

-- The name is what follows the first prefix, so the second prefix spells three dashes.
lemma stops_exec (hshown : ∀ i ∈ catterProxyOptTable.searchable, excludeOption i = false) :
    stops catterProxyOptTable excludeOption argv index execInfo = true ↔
      argv.getD index [] = lit "--exec" ∨ argv.getD index [] = lit "---exec" := by
  rw [stops_separate catterProxyOptTable rfl]
  constructor
  · rintro ⟨hsize, -, hlen⟩
    obtain ⟨pfx, hpfx, hstr⟩ := eq_of_matchOpt_length hsize hlen
    have hprefixes : execInfo.prefixes = [dash, dashDash] := rfl
    rw [hprefixes, List.mem_cons, List.mem_singleton] at hpfx
    rw [hstr]
    obtain rfl | rfl := hpfx
    · exact Or.inl (by decide)
    · exact Or.inr (by decide)
  · rintro (hstr | hstr)
    · rw [hstr]
      exact ⟨by decide, hshown _ (by decide), by decide⟩
    · rw [hstr]
      exact ⟨by decide, hshown _ (by decide), by decide⟩

lemma isInput_catterProxyOptTable {str : Str} (hs : str ≠ []) :
    isInput catterProxyOptTable str = true ↔ str = dash ∨ str.head? ≠ some dashChar := by
  have hunion : catterProxyOptTable.prefixesUnion = [dash, dashDash] := by decide
  have hprefix : (dash <+: str ∨ dashDash <+: str) ↔ str.head? = some dashChar := by
    obtain ⟨c, rest, rfl⟩ := List.exists_cons_of_ne_nil hs
    have hdash : dash = [dashChar] := rfl
    have hdouble : dashDash = [dashChar, dashChar] := rfl
    rw [hdash, hdouble, List.cons_prefix_cons, List.cons_prefix_cons, List.head?_cons,
      Option.some_inj]
    constructor
    · rintro (⟨rfl, -⟩ | ⟨rfl, -⟩)
      · rfl
      · rfl
    · rintro rfl
      exact Or.inl ⟨rfl, List.nil_prefix⟩
  simp only [isInput, hunion, List.any_cons, List.any_nil, Bool.or_false, Bool.or_eq_true,
    decide_eq_true_iff,
    Bool.not_eq_true', ← Bool.not_eq_true, List.isPrefixOf_iff_prefix]
  exact or_congr_right (not_congr hprefix)

lemma untaken_catterProxyOptTable {str : Str} (h : str.head? = some dashChar) :
    untaken catterProxyOptTable str = optUnknown := by
  obtain ⟨rest, rfl⟩ := List.head?_eq_some_iff.mp h
  rfl

lemma metAs_catterProxyOptTable
    (hshown : ∀ i ∈ catterProxyOptTable.searchable, excludeOption i = false)
    (hs : argv.getD index [] ≠ []) :
    metAs catterProxyOptTable excludeOption argv index = some
      (if argv.getD index [] = dash ∨ (argv.getD index []).head? ≠ some dashChar then optInput
      else if argv.getD index [] = lit "-p" then optParentId
      else if argv.getD index [] = lit "--exec" ∨ argv.getD index [] = lit "---exec" then optExec
      else optUnknown) := by
  have hfrom : catterProxyOptTable.searchFrom (argv.getD index []) = [parentIdInfo, execInfo] :=
    searchable_catterProxyOptTable
  have hparent := Bool.eq_iff_iff.mpr
    ((stops_parentId argv index hshown).trans decide_eq_true_iff.symm)
  have hexec := Bool.eq_iff_iff.mpr ((stops_exec argv index hshown).trans decide_eq_true_iff.symm)
  have hinput := isInput_catterProxyOptTable hs
  rw [metAs, internalParseOneArg_stopsAt, stopsAt, hfrom, List.find?_cons, List.find?_cons,
    List.find?_nil, hparent,
    hexec]
  generalize argv.getD index [] = str at *
  by_cases hin : str = dash ∨ str.head? ≠ some dashChar
  · rw [if_pos hin, if_pos (hinput.mpr hin), if_pos (hinput.mpr hin)]
    rfl
  · rw [if_neg hin, if_neg (mt hinput.mp hin), if_neg (mt hinput.mp hin)]
    have hhead : str.head? = some dashChar := not_not.mp (not_or.mp hin).2
    rw [untaken_catterProxyOptTable hhead]
    by_cases hp : str = lit "-p"
    · rw [if_pos hp, decide_eq_true hp]
      rfl
    · rw [if_neg hp, decide_eq_false hp]
      by_cases he : str = lit "--exec" ∨ str = lit "---exec"
      · rw [if_pos he, decide_eq_true he]
        rfl
      · rw [if_neg he, decide_eq_false he]
        rfl

end Met

-- The declared options are what the table accepts, except for "-exec" and three dashes.
theorem declared_options_iff {excludeOption : Info → Bool}
    (hshown : ∀ i ∈ catterProxyOptTable.searchable, excludeOption i = false) {argv : List Str}
    {index : ℕ}
    (hs : argv.getD index [] ≠ []) :
    DeclaredOptions excludeOption argv index ↔
      argv.getD index [] ≠ lit "-exec" ∧ argv.getD index [] ≠ lit "---exec" := by
  have hmet := metAs_catterProxyOptTable argv index hshown hs
  constructor
  · intro h
    constructor
    · intro hexec
      have htaken := h.exec.mpr (Or.inl hexec)
      rw [hmet, hexec] at htaken
      exact absurd htaken (by decide)
    · intro hexec
      rw [hexec] at hmet
      obtain hstr | hstr := h.exec.mp hmet
      · rw [hexec] at hstr
        exact absurd hstr (by decide)
      · rw [hexec] at hstr
        exact absurd hstr (by decide)
  · rintro ⟨hsingle, htriple⟩
    have hparent : argv.getD index [] = lit "-p" →
        ¬ (argv.getD index [] = dash ∨ (argv.getD index []).head? ≠ some dashChar) := by
      intro hp
      rw [hp]
      decide
    have hdouble : argv.getD index [] = lit "--exec" →
        ¬ (argv.getD index [] = dash ∨ (argv.getD index []).head? ≠ some dashChar) ∧
          argv.getD index [] ≠ lit "-p" := by
      intro he
      rw [he]
      decide
    simp only [htriple, or_false] at hmet
    constructor
    · rw [hmet]
      split_ifs with hin hp he
      · exact iff_of_false (by decide) fun hp => hparent hp hin
      · exact iff_of_true rfl hp
      · exact iff_of_false (by decide) hp
      · exact iff_of_false (by decide) hp
    · rw [hmet]
      split_ifs with hin hp he
      · exact iff_of_false (by decide) (not_or.mpr ⟨hsingle, fun he => (hdouble he).1 hin⟩)
      · exact iff_of_false (by decide) (not_or.mpr ⟨hsingle, fun he => (hdouble he).2 hp⟩)
      · exact iff_of_true rfl (Or.inr he)
      · exact iff_of_false (by decide) (not_or.mpr ⟨hsingle, he⟩)
    · rw [hmet]
      split_ifs with hin hp he
      · exact iff_of_true rfl hin
      · exact iff_of_false (by decide) hin
      · exact iff_of_false (by decide) hin
      · exact iff_of_false (by decide) hin
    · rw [hmet]
      split_ifs with hin hp he
      · exact iff_of_false (by decide) fun hnot => hnot (Or.inr (Or.inr (Or.inr hin)))
      · exact iff_of_false (by decide) fun hnot => hnot (Or.inl hp)
      · exact iff_of_false (by decide) fun hnot => hnot (Or.inr (Or.inr (Or.inl he)))
      · apply iff_of_true rfl
        rintro (hp' | hsingle' | he' | hin')
        · exact hp hp'
        · exact hsingle hsingle'
        · exact he he'
        · exact hin hin'

theorem declared_options_parent :
    DeclaredOptions (fun _ => false) [lit "-p", lit "12", lit "--exec", lit "/bin/ls"] 0 :=
  (declared_options_iff (by decide) (by decide)).mpr (by decide)

theorem single_dash_exec_unknown :
    ¬ ∀ excludeOption :
    Info → Bool, (∀ i ∈ catterProxyOptTable.searchable, excludeOption i = false) →
      ∀ (argv : List Str) (index : ℕ), argv.getD index [] ≠ [] → argv.getD index [] ≠ dashDash →
        DeclaredOptions excludeOption argv index := by
  intro hclaim
  have hexec := (hclaim (fun _ => false) (by decide) [lit "-exec", lit "/bin/ls"] 0 (by decide)
    (by decide)).exec
  exact absurd (hexec.mpr (by decide)) (by decide)

end Catter.Opt
