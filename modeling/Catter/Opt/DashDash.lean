import Catter.Opt.ProxyTable

/-! What follows "--" is passed through: parsing is compositional at the first "--"
that stands where an option may stand. -/

namespace Catter.Opt

open Text

variable (t : OptTable)

-- The arguments that the parser looks at as options, with their indices; the ones taken
-- as values are skipped.
def optionPositions (excludeOption : Info → Bool) : ℕ → ℕ → List Str → List (ℕ × Str)
  | _, _, [] => []
  | skipped + 1, index, _ :: following =>
    optionPositions excludeOption skipped (index + 1) following
  | 0, index, str :: following =>
    if str = [] then optionPositions excludeOption 0 (index + 1) following
    else (index, str) ::
      if t.dashDashParsing ∧ str = dashDash then []
      else match takeOne t excludeOption index str following with
        | (none, _) => []
        | (some _, n) => optionPositions excludeOption (n - 1) (index + 1) following

def takesRemaining (excludeOption : Info → Bool) (str : Str) : Bool :=
  !isInput t str && (t.taking excludeOption str).any fun p =>
    p.1.kind = .remainingArgs || p.1.kind = .remainingArgsJoined

lemma optionPositions_skip (excludeOption : Info → Bool) (skipped index : ℕ) (argv : List Str) :
    optionPositions t excludeOption skipped index argv =
      optionPositions t excludeOption 0 (index + skipped) (argv.drop skipped) := by
  induction skipped generalizing index argv with
  | zero => rfl
  | succ skipped ih =>
    cases argv with
    | nil => rfl
    | cons str following =>
      rw [optionPositions, List.drop_succ_cons, ih, Nat.add_assoc, Nat.add_comm 1]

lemma optionPositions_emit {excludeOption : Info → Bool} {index n : ℕ} {str : Str}
    {following : List Str}
    {a : ParsedArgument} (hs : str ≠ []) (hdd : ¬ (t.dashDashParsing = true ∧ str = dashDash))
    (h : takeOne t excludeOption index str following = (some a, n)) :
    optionPositions t excludeOption 0 index (str :: following) =
      (index, str) :: optionPositions t excludeOption 0 (index + n) (following.drop (n - 1)) := by
  have hpos := takeOne_pos t excludeOption index str following
  rw [h] at hpos
  have hadvance : index + 1 + (n - 1) = index + n := by
    simp only at hpos
    omega
  rw [optionPositions, if_neg hs, if_neg hdd, h, ← hadvance, ← optionPositions_skip]

lemma takeOne_append {excludeOption : Info → Bool} {index n : ℕ} {str : Str} {following : List Str}
    {a : ParsedArgument} (hr : takesRemaining t excludeOption str = false)
    (h : takeOne t excludeOption index str following = (some a, n)) (more : List Str) :
    takeOne t excludeOption index str (following ++ more) = (some a, n) ∧
      n - 1 ≤ following.length := by
  rw [takeOne] at h ⊢
  by_cases hin : isInput t str = true
  · rw [if_pos hin] at h ⊢
    obtain ⟨-, rfl⟩ := Prod.mk.inj h
    exact ⟨h, Nat.zero_le _⟩
  · rw [if_neg hin] at h ⊢
    cases ht : t.taking excludeOption str with
    | none =>
      simp only [ht] at h ⊢
      obtain ⟨-, rfl⟩ := Prod.mk.inj h
      exact ⟨h, Nat.zero_le _⟩
    | some p =>
      have hk : p.1.kind ≠ .remainingArgs ∧ p.1.kind ≠ .remainingArgsJoined := by
        simpa [takesRemaining, hin, ht] using hr
      simp only [ht] at h ⊢
      cases hc : consume p.1 p.2 str following with
      | mk values m =>
        simp only [takeWith, hc, Prod.mk.injEq] at h
        obtain ⟨ha, rfl⟩ := h
        obtain ⟨vs, rfl, rfl⟩ := Option.map_eq_some_iff.mp ha
        have htakes := takes_of_consume hc
        have hle := htakes.le
        rw [takeWith, consume_of_takes (htakes.append hk more)]
        exact ⟨rfl, by omega⟩

lemma parseFrom_append_dashDash (excludeOption : Info → Bool) (hdd : t.dashDashParsing = true)
    (index : ℕ)
    (pre post : List Str) (hcount : (parseFrom t excludeOption index pre).missingArgCount = 0)
    (hno : ∀ p ∈ optionPositions t excludeOption 0 index pre, p.2 ≠ dashDash)
    (hremaining : ∀ p ∈ optionPositions t excludeOption 0 index pre,
      takesRemaining t excludeOption p.2 = false) :
    parseFrom t excludeOption index (pre ++ dashDash :: post) =
      ⟨(parseFrom t excludeOption index pre).args ++ dashDashArgs t (index + pre.length) post,
        0, 0⟩ := by
  induction index, pre using parseFrom.induct t excludeOption with
  | case1 index =>
    rw [List.nil_append, parseFrom_stop t hdd, parseFrom]
    rfl
  | case2 index following ih =>
    rw [parseFrom, if_pos rfl] at hcount
    rw [optionPositions, if_pos rfl] at hno hremaining
    rw [List.cons_append, parseFrom, if_pos rfl, ih hcount hno hremaining, parseFrom, if_pos rfl,
      List.length_cons, Nat.add_assoc, Nat.add_comm 1]
  | case3 index str following hs hdash =>
    rw [optionPositions, if_neg hs] at hno
    exact absurd hdash.2 (hno (index, str) List.mem_cons_self)
  | case4 index str following hs hdash n htaken =>
    have hn := takeOne_none_count t htaken
    rw [parseFrom_missing t hs hdash htaken] at hcount
    simp only at hcount
    omega
  | case5 index str following hs hdash a n htaken ih =>
    rw [parseFrom_emit t hs hdash htaken] at hcount
    rw [optionPositions_emit t hs hdash htaken] at hno hremaining
    obtain ⟨hmore, hle⟩ :=
      takeOne_append t (hremaining (index, str) List.mem_cons_self) htaken (dashDash :: post)
    have hpos := takeOne_pos t excludeOption index str following
    rw [htaken] at hpos
    have hend : index + n + (following.drop (n - 1)).length =
        index + (str :: following).length := by
      simp only at hpos
      rw [List.length_drop, List.length_cons]
      omega
    rw [List.cons_append, parseFrom_emit t hs hdash hmore, List.drop_append_of_le_length hle,
      ih hcount (fun p hp => hno p (List.mem_cons_of_mem _ hp))
        (fun p hp => hremaining p (List.mem_cons_of_mem _ hp)),
      parseFrom_emit t hs hdash htaken, hend]
    rfl

lemma inputsFrom_eq (index : ℕ) (post : List Str) :
    inputsFrom t index post = post.mapIdx fun k str => plain t.inputOptionId str (index + k) := by
  induction post generalizing index with
  | nil => rfl
  | cons str following ih =>
    rw [inputsFrom, ih, List.mapIdx_cons]
    simp [Nat.add_assoc, Nat.add_comm 1]

theorem dash_dash_passes_through (excludeOption : Info → Bool) (hg : t.groupedShortOptions = false)
    (hdd : t.dashDashParsing = true) (pre post : List Str) (r : ParseResult)
    (hr : internalParseArgs t excludeOption pre = .ok r) (hcount : r.missingArgCount = 0)
    (hno : ∀ p ∈ optionPositions t excludeOption 0 0 pre, p.2 ≠ dashDash)
    (hremaining :
      ∀ p ∈ optionPositions t excludeOption 0 0 pre, takesRemaining t excludeOption p.2 = false) :
    internalParseArgs t excludeOption (pre ++ dashDash :: post) =
      .ok ⟨r.args ++
        if t.dashDashAsSinglePack then [⟨t.inputOptionId, dashDash, post, pre.length, none, none⟩]
        else post.mapIdx fun k str => plain t.inputOptionId str (pre.length + 1 + k), 0, 0⟩ := by
  rw [internalParseArgs_eq t excludeOption hg] at hr ⊢
  obtain rfl := Except.ok.inj hr
  rw [parseFrom_append_dashDash t excludeOption hdd 0 pre post hcount hno hremaining, dashDashArgs,
    inputsFrom_eq,
    Nat.zero_add]

theorem dash_dash_passes_through_proxy :
    internalParseArgs catterProxyOptTable (fun _ => false)
        ([lit "-p", lit "17", lit "--exec", lit "/bin/cc"] ++ dashDash ::
          [lit "cc", lit "-p", [], dashDash]) =
      .ok ⟨[⟨3, lit "-p", [lit "17"], 0, none, none⟩,
        ⟨4, lit "--exec", [lit "/bin/cc"], 2, none, none⟩] ++
        [lit "cc", lit "-p", [], dashDash].mapIdx fun k str => plain 1 str (5 + k), 0, 0⟩ :=
  dash_dash_passes_through catterProxyOptTable (fun _ => false) rfl rfl _ _
    ⟨[⟨3, lit "-p", [lit "17"], 0, none, none⟩, ⟨4, lit "--exec", [lit "/bin/cc"], 2, none, none⟩],
      0, 0⟩
    (by decide) rfl (by decide) (by decide)

end Catter.Opt
