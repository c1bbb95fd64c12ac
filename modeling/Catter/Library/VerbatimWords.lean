import Catter.Library.ProgramName

/-! Words that stand in a command line as they are, with one blank in front of each: which
of them are read back. -/

namespace Catter.Library.CommandLine

open Letters

variable {α : Type} [Letters α] [DecidableEq α] {b : α} {ws : List (List α)}

lemma scanArg_rest (quoting : Quoting) (n : ℕ) (cs : List α) :
    (scanArg quoting n cs).2 = [] ∨ ∃ b rest, (scanArg quoting n cs).2 = b :: rest ∧
      isBlank b = true := by
  induction cs generalizing quoting n with
  | nil => exact Or.inl rfl
  | cons c cs ih =>
    rw [scanArg]
    split_ifs with hslash hquote hclosing hodd hstop
    · exact ih _ _
    · exact ih _ _
    · exact ih _ _
    · exact ih _ _
    · exact Or.inr ⟨c, cs, rfl, hstop.2⟩
    · exact ih _ _

-- A letter gives at most one letter, and a quote that does not end a quoted part before it gives
-- none.
lemma scanArg_length (quoting : Quoting) (n : ℕ) (cs : List α) :
    (scanArg quoting n cs).1.length + (scanArg quoting n cs).2.length ≤ n + cs.length ∧
      (quoting ≠ .closing → quote ∈ cs → quote ∈ (scanArg quoting n cs).2 ∨
        (scanArg quoting n cs).1.length + (scanArg quoting n cs).2.length < n + cs.length) := by
  induction cs generalizing quoting n with
  | nil => simp [scanArg]
  | cons c cs ih =>
    rw [scanArg]
    by_cases hslash : c = slash
    · obtain ⟨hle, hlt⟩ := ih quoting.settle (n + 1)
      have hsettle : quoting.settle ≠ .closing := by cases quoting <;> decide
      rw [if_pos hslash, List.length_cons]
      refine ⟨by omega, fun _ hmem => ?_⟩
      have hmem : quote ∈ cs := by
        rcases List.mem_cons.mp hmem with heq | hmem
        · exact absurd (heq.trans hslash) quote_ne_slash
        · exact hmem
      exact (hlt hsettle hmem).imp_right fun h => by omega
    rw [if_neg hslash]
    by_cases hquote : c = quote
    · rw [if_pos hquote]
      have hinside := (ih .inside 0).1
      have hsettle := (ih quoting.settle 0).1
      have htoggle := (ih quoting.toggle 0).1
      split_ifs with hclosing hodd
      · refine ⟨?_, fun hne => absurd hclosing.1 hne⟩
        simp only [prepend, List.length_append, List.length_cons, List.length_nil]
        omega
      · simp only [prepend, List.length_append, List.length_replicate, List.length_cons,
          List.length_nil]
        refine ⟨by omega, fun _ _ => Or.inr (by omega)⟩
      · simp only [prepend, List.length_append, List.length_replicate, List.length_cons]
        refine ⟨by omega, fun _ _ => Or.inr (by omega)⟩
    rw [if_neg hquote]
    split_ifs with hstop
    · refine ⟨by simp, fun _ hmem => Or.inl hmem⟩
    · obtain ⟨hle, hlt⟩ := ih quoting.settle 0
      have hsettle : quoting.settle ≠ .closing := by cases quoting <;> decide
      simp only [prepend, List.length_append, List.length_replicate, List.length_cons,
        List.length_nil]
      refine ⟨by omega, fun _ hmem => ?_⟩
      have hmem : quote ∈ cs := (List.mem_cons.mp hmem).resolve_left fun heq => hquote heq.symm
      exact (hlt hsettle hmem).imp_right fun h => by omega

lemma arguments_induction {P : List α → List (List α) → Prop} (nil : P [] [])
    (blank : ∀ c cs, isBlank c = true → P cs (arguments cs) → P (c :: cs) (arguments cs))
    (word : ∀ c cs, isBlank c = false →
      P (scanArg .outside 0 (c :: cs)).2 (arguments (scanArg .outside 0 (c :: cs)).2) →
      P (c :: cs) ((scanArg .outside 0 (c :: cs)).1 :: arguments (scanArg .outside 0 (c :: cs)).2))
    (cs : List α) : P cs (arguments cs) := by
  induction hlength : cs.length using Nat.strong_induction_on generalizing cs with
  | _ length ih =>
    subst hlength
    cases cs with
    | nil => exact nil
    | cons c cs =>
      cases hc : isBlank c with
      | true =>
        rw [arguments_blank hc]
        exact blank c cs hc (ih _ (Nat.lt_succ_self _) cs rfl)
      | false =>
        rw [arguments_cons hc]
        exact word c cs hc (ih _ (Nat.lt_succ_of_le (scanArg_rest_lt hc cs)) _ rfl)

def room (ws : List (List α)) : ℕ := (ws.map fun w => w.length + 1).sum

omit [Letters α] [DecidableEq α] in
lemma length_flatMap (b : α) (ws : List (List α)) : (ws.flatMap (b :: ·)).length = room ws := by
  simp [room, List.length_flatMap]

omit [Letters α] [DecidableEq α] in
lemma room_cons (w : List α) (ws : List (List α)) : room (w :: ws) = w.length + 1 + room ws := by
  simp [room]

structure Roomy (cs : List α) (args : List (List α)) : Prop where
  le : room args ≤ cs.length + 1
  lt : quote ∈ cs → room args < cs.length + 1
  le_blank : (∀ c ∈ cs.head?, isBlank c = true) → room args ≤ cs.length
  lt_blank : (∀ c ∈ cs.head?, isBlank c = true) → quote ∈ cs → room args < cs.length

lemma roomy_arguments (cs : List α) : Roomy cs (arguments cs) := by
  apply arguments_induction (P := Roomy)
  · exact ⟨by simp [room], by simp, by simp [room], by simp⟩
  · intro c cs hc ih
    have hquote : quote ∈ c :: cs → quote ∈ cs := fun hmem =>
      (List.mem_cons.mp hmem).resolve_left (ne_of_isBlank hc isBlank_quote).symm
    have hle := ih.le
    refine ⟨?_, fun hmem => ?_, fun _ => ?_, fun _ hmem => ?_⟩
    · rw [List.length_cons]
      omega
    · have hlt := ih.lt (hquote hmem)
      rw [List.length_cons]
      omega
    · rwa [List.length_cons]
    · rw [List.length_cons]
      exact ih.lt (hquote hmem)
  · intro c cs hc ih
    obtain ⟨hle, hlt⟩ := scanArg_length .outside 0 (c :: cs)
    have hblank : ∀ d ∈ (scanArg .outside 0 (c :: cs)).2.head?, isBlank d = true := by
      intro d hd
      rcases scanArg_rest .outside 0 (c :: cs) with hrest | ⟨b, rest, hrest, hb⟩
      · rw [hrest] at hd
        exact absurd hd (Option.not_mem_none d)
      · rw [hrest] at hd
        obtain rfl := Option.some.inj hd
        exact hb
    have hnot : ¬ ∀ d ∈ (c :: cs).head?, isBlank d = true := by
      intro h
      rw [h c rfl] at hc
      cases hc
    have hrest := ih.le_blank hblank
    refine ⟨?_, fun hmem => ?_, fun h => absurd h hnot, fun h => absurd h hnot⟩
    · rw [room_cons]
      omega
    · rw [room_cons]
      rcases hlt (by decide) hmem with hmem | hlt
      · have hless := ih.lt_blank hblank hmem
        omega
      · omega

lemma outside_ne_inside : Quoting.outside ≠ .inside := by decide

lemma scanArg_no_quote {quoting : Quoting} (hquoting : quoting ≠ .inside) {n : ℕ} {cs : List α}
    (hcs : quote ∉ cs) :
    n ≤ (scanArg quoting n cs).1.length ∧ (∀ c ∈ (scanArg quoting n cs).1, isBlank c = false) ∧
      quote ∉ (scanArg quoting n cs).2 := by
  have hslashes : ∀ k : ℕ, ∀ c ∈ List.replicate k (slash : α), isBlank c = false := by
    intro k c hc
    rw [List.eq_of_mem_replicate hc]
    exact isBlank_slash
  induction cs generalizing quoting n with
  | nil => exact ⟨by simp [scanArg], hslashes n, List.not_mem_nil⟩
  | cons c cs ih =>
    rw [List.mem_cons, not_or] at hcs
    have hsettle : quoting.settle ≠ .inside := by rwa [ne_eq, Quoting.settle_eq_inside]
    rw [scanArg, if_neg (Ne.symm hcs.1)]
    split_ifs with hslash hstop
    · obtain ⟨hle, hblank, hrest⟩ := ih hsettle (n := n + 1) hcs.2
      exact ⟨(Nat.le_succ n).trans hle, hblank, hrest⟩
    · refine ⟨by simp, hslashes n, ?_⟩
      rw [List.mem_cons, not_or]
      exact hcs
    · obtain ⟨-, hblank, hrest⟩ := ih hsettle (n := 0) hcs.2
      have hc : isBlank c = false := by
        rw [← Bool.not_eq_true]
        exact fun h => hstop ⟨hquoting, h⟩
      refine ⟨by simp [prepend], ?_, hrest⟩
      intro d hd
      simp only [prepend, List.mem_append, List.mem_singleton] at hd
      rcases hd with (hd | rfl) | hd
      · exact hslashes n d hd
      · exact hc
      · exact hblank d hd

lemma arguments_no_quote (cs : List α) (hcs : quote ∉ cs) :
    ∀ w ∈ arguments cs, w ≠ [] ∧ ∀ c ∈ w, isBlank c = false := by
  revert hcs
  apply arguments_induction (P := fun cs args => quote ∉ cs → ∀ w ∈ args, w ≠ [] ∧
    ∀ c ∈ w, isBlank c = false)
  · exact fun _ w hw => absurd hw List.not_mem_nil
  · intro c cs hc ih hcs
    exact ih fun hmem => hcs (List.mem_cons_of_mem c hmem)
  · intro c cs hc ih hcs w hw
    obtain ⟨-, hblank, hrest⟩ := scanArg_no_quote (n := 0) outside_ne_inside hcs
    rcases List.mem_cons.mp hw with rfl | hw
    · refine ⟨?_, hblank⟩
      rw [List.mem_cons, not_or] at hcs
      rw [scanArg, if_neg (Ne.symm hcs.1)]
      split_ifs with hslash hstop
      · have hle := (scanArg_no_quote (n := 0 + 1) outside_ne_inside hcs.2).1
        exact List.ne_nil_of_length_pos hle
      · rw [hc] at hstop
        exact absurd hstop.2 Bool.false_ne_true
      · simp [prepend]
    · exact ih hrest w hw

lemma arguments_last {word : List α} (hword : IsPlain word) : arguments word = [word] := by
  obtain ⟨c, cs, rfl⟩ := List.exists_cons_of_ne_nil hword.nonempty
  have hscan := scanArg_plain hword.no_blank hword.no_quote follows_nil 0
  rw [List.append_nil] at hscan
  rw [arguments_cons (hword.no_blank c List.mem_cons_self), hscan]
  rfl

/-- Words that stand as they are come back exactly where none is empty and none has a blank or a
quote. -/
theorem arguments_verbatim_iff (hb : isBlank b = true) : arguments (ws.flatMap (b :: ·)) = ws ↔
    ∀ w ∈ ws, IsPlain w := by
  constructor
  · intro h w hw
    have hroomy := roomy_arguments (ws.flatMap (b :: ·))
    have hhead : ∀ c ∈ (ws.flatMap (b :: ·)).head?, isBlank c = true := by
      cases ws with
      | nil => exact fun c hc => absurd hc (Option.not_mem_none c)
      | cons w ws =>
        intro c hc
        obtain rfl := Option.some.inj hc
        exact hb
    have hquote : quote ∉ ws.flatMap (b :: ·) := by
      intro hmem
      have hlt := hroomy.lt_blank hhead hmem
      rw [h, length_flatMap] at hlt
      exact absurd hlt (lt_irrefl _)
    have hwords := arguments_no_quote _ hquote w (by rwa [h])
    refine ⟨hwords.1, hwords.2, fun hmem => hquote ?_⟩
    exact List.mem_flatMap.mpr ⟨w, hw, List.mem_cons_of_mem b hmem⟩
  · intro h
    induction ws with
    | nil => rfl
    | cons w ws ih =>
      obtain ⟨hw, hws⟩ := List.forall_mem_cons.mp h
      rw [List.flatMap_cons, List.cons_append, arguments_blank hb]
      cases ws with
      | nil => rw [List.flatMap_nil, List.append_nil, arguments_last hw]
      | cons v ws =>
        have hrest := ih hws
        rw [List.flatMap_cons, List.cons_append, arguments_blank hb] at hrest
        rw [List.flatMap_cons, List.cons_append, arguments_plain hw hb, hrest]

theorem splitLine_verbatim_iff (hb : isBlank b = true) (name : List α) :
    splitLine (name ++ ws.flatMap (b :: ·)) = (name, ws) ↔
      (∀ c ∈ name, isBlank c = false) ∧ quote ∉ name ∧ ∀ w ∈ ws, IsPlain w := by
  have hscan (hblank : ∀ c ∈ name, isBlank c = false) (hquote : quote ∉ name) :
      scanProgram false (name ++ ws.flatMap (b :: ·)) = (name, ws.flatMap (b :: ·)) := by
    apply scanProgram_plain hblank hquote
    cases ws with
    | nil => exact follows_nil
    | cons w ws => exact follows_cons hb _
  constructor
  · intro h
    have hname : (scanProgram false (name ++ ws.flatMap (b :: ·))).1 = name := (Prod.mk.inj h).1
    have hquote : quote ∉ name := by
      rw [← hname]
      exact quote_notMem_scanProgram _ _
    have hblank : ∀ c ∈ name, isBlank c = false := by
      by_contra hsome
      simp only [not_forall, Bool.not_eq_false, exists_prop] at hsome
      have hstops := scanProgram_stops hquote hsome (ws.flatMap (b :: ·))
      rw [hname] at hstops
      exact lt_irrefl _ hstops
    refine ⟨hblank, hquote, ?_⟩
    have hargs := (Prod.mk.inj h).2
    rw [hscan hblank hquote] at hargs
    exact (arguments_verbatim_iff hb).mp hargs
  · rintro ⟨hblank, hquote, hplain⟩
    rw [splitLine, hscan hblank hquote]
    exact congrArg (Prod.mk name) ((arguments_verbatim_iff hb).mpr hplain)

end Catter.Library.CommandLine
