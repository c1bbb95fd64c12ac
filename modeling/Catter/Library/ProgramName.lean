import Catter.Library.WordStream

/-! A program name that is read as an argument, and a line that is read on without its name. -/

namespace Catter.Library.CommandLine

open Letters

variable {α : Type} [DecidableEq α] [Letters α]

def StartsWord (line : List α) : Prop := ∃ c ∈ line.head?, isBlank c = false

-- No backslash stands right before a quote, and no quote right after one that ends a quoted part.
def plainProgram (quoting : Quoting) (afterSlash : Bool) : List α → Bool
  | [] => true
  | c :: cs =>
    if c = quote then !afterSlash && quoting != .closing && plainProgram quoting.toggle false cs
    else if quoting ≠ .inside ∧ isBlank c then true
    else plainProgram quoting.settle (c = slash) cs

lemma scanProgram_rest (inQuotes : Bool) (cs : List α) :
    (scanProgram inQuotes cs).2 = [] ∨ ∃ b rest, (scanProgram inQuotes cs).2 = b :: rest ∧
      isBlank b = true := by
  induction cs generalizing inQuotes with
  | nil => exact Or.inl rfl
  | cons c cs ih =>
    rw [scanProgram]
    split_ifs with hquote hstop
    · exact ih _
    · rw [Bool.and_eq_true] at hstop
      exact Or.inr ⟨c, cs, rfl, hstop.2⟩
    · exact ih _

lemma quote_notMem_scanProgram (inQuotes : Bool) (cs : List α) :
    quote ∉ (scanProgram inQuotes cs).1 := by
  induction cs generalizing inQuotes with
  | nil => exact List.not_mem_nil
  | cons c cs ih =>
    rw [scanProgram]
    split_ifs with hquote hstop
    · exact ih _
    · exact List.not_mem_nil
    · intro hmem
      rcases List.mem_cons.mp hmem with he | hmem
      · exact hquote he.symm
      · exact ih _ hmem

/-! The name as an argument. -/

-- The scanner of arguments agrees, or it gives a quote, or it loses backslashes.
lemma scanArg_program {quoting : Quoting} {n : ℕ} {inQuotes : Bool}
    (hsync : inQuotes = true ↔ quoting = .inside)
    (hn : 0 < n → quoting ≠ .closing) (cs : List α) :
    plainProgram quoting (0 < n) cs = true ∧
        scanArg quoting n cs = prepend (List.replicate n slash) (scanProgram inQuotes cs) ∨
      plainProgram quoting (0 < n) cs = false ∧
        (quote ∈ (scanArg quoting n cs).1 ∨
          (scanArg quoting n cs).1.length < n + (scanProgram inQuotes cs).1.length) := by
  induction cs generalizing quoting n inQuotes with
  | nil => exact Or.inl ⟨rfl, by simp [scanArg, scanProgram, prepend]⟩
  | cons c cs ih =>
    have hsettle : quoting.settle ≠ .closing := by cases quoting <;> decide
    have hsync' : inQuotes = true ↔ quoting.settle = .inside := by
      rw [hsync, Quoting.settle_eq_inside]
    by_cases hquote : c = quote
    · have hslash : c ≠ slash := hquote ▸ quote_ne_slash
      have htoggle : (!inQuotes) = true ↔ quoting.toggle = .inside := by
        rw [Quoting.toggle_eq_inside, ne_eq, ← hsync]
        cases inQuotes <;> simp
      have hrec := ih htoggle (n := 0) (by simp)
      rw [plainProgram, scanArg, scanProgram, if_pos hquote, if_neg hslash, if_pos hquote,
        if_pos hquote]
      by_cases hzero : n = 0
      · subst hzero
        by_cases hclosing : quoting = .closing
        · right
          simp [hclosing, prepend]
        · simpa [hclosing, prepend] using hrec
      · have hclosing : quoting ≠ .closing := hn (by omega)
        right
        rw [if_neg fun h => hzero h.2]
        refine ⟨by simp [Nat.pos_of_ne_zero hzero], ?_⟩
        split_ifs with hodd
        · left
          simp [prepend]
        · rcases hrec with ⟨-, heq⟩ | ⟨-, hmem | hlt⟩
          · right
            rw [heq]
            simp only [prepend, List.length_append, List.length_replicate]
            omega
          · left
            simp [prepend, hmem]
          · right
            simp only [prepend, List.length_append, List.length_replicate]
            omega
    by_cases hslash : c = slash
    · have hstop : ¬ (quoting ≠ .inside ∧ isBlank c = true) := by simp [hslash, isBlank_slash]
      have hstop' : ¬ (!inQuotes && isBlank c) = true := by simp [hslash, isBlank_slash]
      have hrec := ih hsync' (n := n + 1) fun _ => hsettle
      rw [plainProgram, scanArg, scanProgram, if_neg hquote, if_neg hstop, if_pos hslash,
        if_neg hquote, if_neg hstop']
      rw [decide_eq_true hslash]
      rw [decide_eq_true (Nat.succ_pos n)] at hrec
      rcases hrec with ⟨hplain, heq⟩ | ⟨hplain, hrest⟩
      · left
        refine ⟨hplain, ?_⟩
        rw [heq, hslash]
        simp [prepend, List.replicate_succ']
      · right
        refine ⟨hplain, hrest.imp id fun hlt => ?_⟩
        simp only [prepend, List.length_append, List.length_singleton]
        omega
    · rw [plainProgram, scanArg, scanProgram, if_neg hquote, if_neg hslash, if_neg hquote,
        if_neg hquote]
      by_cases hstop : quoting ≠ .inside ∧ isBlank c = true
      · have hstop' : (!inQuotes && isBlank c) = true := by
          rw [hstop.2, Bool.and_true, Bool.not_eq_true', ← Bool.not_eq_true, hsync]
          exact hstop.1
        rw [if_pos hstop, if_pos hstop, if_pos hstop']
        left
        simp [prepend]
      · have hstop' : ¬ (!inQuotes && isBlank c) = true := by
          intro h
          rw [Bool.and_eq_true, Bool.not_eq_true'] at h
          apply hstop
          refine ⟨fun hinside => ?_, h.2⟩
          rw [← hsync, h.1] at hinside
          exact Bool.false_ne_true hinside
        have hrec := ih hsync' (n := 0) (by simp)
        rw [if_neg hstop, if_neg hstop, if_neg hstop', decide_eq_false hslash]
        rcases hrec with ⟨hplain, heq⟩ | ⟨hplain, hrest⟩
        · left
          refine ⟨hplain, ?_⟩
          rw [heq]
          simp [prepend]
        · right
          refine ⟨hplain, hrest.imp (fun hmem => ?_) fun hlt => ?_⟩
          · simp [prepend, hmem]
          · simp only [prepend, List.length_append, List.length_replicate, List.length_singleton]
            omega

theorem arguments_eq_splitLine_iff (line : List α) :
    arguments line = (splitLine line).1 :: (splitLine line).2 ↔
      StartsWord line ∧ plainProgram .outside false line = true := by
  cases line with
  | nil => simp [StartsWord, splitLine, arguments_nil]
  | cons c cs =>
    cases hc : isBlank c with
    | true =>
      have hquote : c ≠ quote := ne_of_isBlank hc isBlank_quote
      have hname : splitLine (c :: cs) = ([], arguments (c :: cs)) := by
        rw [splitLine, scanProgram, if_neg hquote, hc]
        rfl
      apply iff_of_false
      · rw [hname]
        intro h
        have hlength := congrArg List.length h
        simp only [List.length_cons] at hlength
        omega
      · rintro ⟨⟨d, hd, hblank⟩, -⟩
        rw [List.head?_cons, Option.mem_some_iff] at hd
        rw [← hd, hc] at hblank
        exact absurd hblank.symm Bool.false_ne_true
    | false =>
      have hstarts : StartsWord (c :: cs) := ⟨c, rfl, hc⟩
      rw [arguments_cons hc, splitLine]
      have hsync : false = true ↔ Quoting.outside = .inside := by decide
      rcases scanArg_program hsync (n := 0) (by simp) (c :: cs) with ⟨hplain, heq⟩
        | ⟨hplain, hdiffers⟩
      · rw [decide_eq_false (Nat.lt_irrefl 0)] at hplain
        refine iff_of_true ?_ ⟨hstarts, hplain⟩
        rw [heq]
        rfl
      · rw [decide_eq_false (Nat.lt_irrefl 0)] at hplain
        apply iff_of_false
        · intro h
          have hname : (scanArg .outside 0 (c :: cs)).1 = (scanProgram false (c :: cs)).1 :=
            (List.cons.inj h).1
          rw [hname] at hdiffers
          rcases hdiffers with hmem | hlt
          · exact quote_notMem_scanProgram _ _ hmem
          · omega
        · rw [hplain]
          exact fun h => Bool.false_ne_true h.2

/-! A line from its name on, and from behind its name. -/

omit [DecidableEq α] in
lemma ends_slashes (quoting : Quoting) (within : Bool) (n : ℕ) :
    ∃ quoting' within', (quoting' = .inside ↔ quoting = .inside) ∧ ∀ is : List (Item α),
      ends quoting within (List.replicate n (.text slash) ++ is) = ends quoting' within' is := by
  induction n generalizing quoting within with
  | zero => exact ⟨quoting, within, Iff.rfl, fun is => rfl⟩
  | succ n ih =>
    obtain ⟨quoting', within', hinside, hends⟩ := ih quoting.settle true
    refine ⟨quoting', within', by rw [hinside, Quoting.settle_eq_inside], fun is => ?_⟩
    have hslash : ¬ (quoting ≠ .inside ∧ isBlank (slash : α) = true) := by simp [isBlank_slash]
    rw [List.replicate_succ, List.cons_append, ends, if_neg hslash, hends]

omit [DecidableEq α] in
lemma ends_quote (quoting : Quoting) (within : Bool) (is : List (Item α)) :
    ends quoting within (.quote :: is) = ends quoting.toggle true is := by
  cases quoting <;> rfl

-- Where no quote is an ordinary letter, both scanners are in quotes at the same places.
lemma items_program {quoting : Quoting} {inQuotes : Bool}
    (hsync : inQuotes = true ↔ quoting = .inside)
    (within : Bool) (n : ℕ) (cs : List α) :
    ∃ is, items n cs = is ++ items 0 (scanProgram inQuotes cs).2 ∧
      ((scanProgram inQuotes cs).2 = [] ∨ .text quote ∈ is ∨ (ends quoting within is).1 ≠
        .inside) := by
  induction cs generalizing quoting inQuotes within n with
  | nil => exact ⟨items n [], (List.append_nil _).symm, Or.inl rfl⟩
  | cons c cs ih =>
    by_cases hslash : c = slash
    · have hquote : c ≠ quote := hslash ▸ quote_ne_slash.symm
      have hstop : ¬ (!inQuotes && isBlank c) = true := by simp [hslash, isBlank_slash]
      obtain ⟨is, hitems, hends⟩ := ih hsync within (n + 1)
      rw [items, if_pos hslash, scanProgram, if_neg hquote, if_neg hstop]
      exact ⟨is, hitems, hends⟩
    by_cases hquote : c = quote
    · obtain ⟨quoting', within', hinside, hslashes⟩ := ends_slashes (α := α) quoting within (n / 2)
      have htoggle : (!inQuotes) = true ↔ quoting'.toggle = .inside := by
        rw [Quoting.toggle_eq_inside, ne_eq, hinside, ← hsync]
        cases inQuotes <;> simp
      obtain ⟨is, hitems, hends⟩ := ih htoggle true 0
      rw [items, if_neg hslash, if_pos hquote, scanProgram, if_pos hquote, hitems]
      split_ifs
      · refine ⟨List.replicate (n / 2) (.text slash) ++ .text quote :: is,
          by simp, Or.inr (Or.inl ?_)⟩
        simp
      · refine ⟨List.replicate (n / 2) (.text slash) ++ .quote :: is,
          by simp, hends.imp id (Or.imp ?_ ?_)⟩
        · intro hmem
          simp [hmem]
        · rw [hslashes, ends_quote]
          exact id
    · obtain ⟨quoting', within', hinside, hslashes⟩ := ends_slashes (α := α) quoting within n
      have hsync' : inQuotes = true ↔ quoting' = .inside := by rw [hsync, hinside]
      rw [items, if_neg hslash, if_neg hquote, scanProgram, if_neg hquote]
      split_ifs with hstop
      · refine ⟨List.replicate n (.text slash),
          by rw [items_letter hslash hquote], Or.inr (Or.inr ?_)⟩
        have hends := hslashes []
        rw [List.append_nil] at hends
        rw [hends]
        change quoting' ≠ .inside
        rw [ne_eq, ← hsync']
        intro h
        rw [h] at hstop
        simp at hstop
      · have hgoes : ¬ (quoting' ≠ .inside ∧ isBlank c = true) := by
          rintro ⟨hout, hblank⟩
          rw [ne_eq, ← hsync', Bool.not_eq_true] at hout
          apply hstop
          rw [hout, hblank]
          rfl
        have hsettle : inQuotes = true ↔ quoting'.settle = .inside := by
          rw [hsync', Quoting.settle_eq_inside]
        obtain ⟨is, hitems, hends⟩ := ih hsettle true 0
        rw [hitems]
        refine ⟨List.replicate n (.text slash) ++ .text c :: is,
          by simp [prepend], hends.imp id (Or.imp ?_ ?_)⟩
        · intro hmem
          simp [hmem]
        · rw [hslashes, ends, if_neg hgoes]
          exact id

omit [DecidableEq α] in
lemma mem_stream {c : α} (hc : isBlank c = false) (quoting : Quoting) (within : Bool)
    {is : List (Item α)}
    (hmem : .text c ∈ is) : some c ∈ stream quoting within is := by
  induction is generalizing quoting within with
  | nil => exact absurd hmem List.not_mem_nil
  | cons i is ih =>
    cases i with
    | text d =>
      rcases List.mem_cons.mp hmem with heq | hmem
      · obtain rfl := Item.text.inj heq
        rw [stream_letter _ _ hc]
        simp
      · rw [stream]
        split_ifs
        · exact ih _ _ hmem
        · simp [ih _ _ hmem]
    | quote =>
      have hmem : .text c ∈ is := by simpa using hmem
      rw [stream]
      split_ifs
      · simp [ih _ _ hmem]
      · simp [ih _ _ hmem]

omit [DecidableEq α] in
lemma ends_within {quoting : Quoting} {within : Bool} (h : quoting = .inside → within = true)
    (is : List (Item α)) :
    (ends quoting within is).1 = .inside → (ends quoting within is).2 = true := by
  induction is generalizing quoting within with
  | nil => exact h
  | cons i is ih =>
    cases i with
    | text c =>
      rw [ends]
      split_ifs
      · exact ih fun h => by simp at h
      · exact ih fun _ => rfl
    | quote =>
      rw [ends_quote]
      exact ih fun _ => rfl

omit [DecidableEq α] in
lemma le_total {s : Option α} {ahead : List (Option α)} (h : s ∈ ahead) :
    weight s ≤ total ahead := by
  obtain ⟨before, behind, rfl⟩ := List.append_of_mem h
  rw [total_append, total_cons]
  omega

theorem arguments_ne {line : List α} (hstarts : StartsWord line) :
    arguments line ≠ arguments (scanProgram false line).2 := by
  obtain ⟨c, hhead, hc⟩ := hstarts
  obtain ⟨cs, rfl⟩ : ∃ cs, line = c :: cs := List.head?_eq_some_iff.mp hhead
  intro heq
  have hstream := congrArg render heq
  rw [← stream_arguments, ← stream_arguments] at hstream
  have hsync : false = true ↔ Quoting.outside = .inside := by decide
  obtain ⟨i, is₀, hfirst, hopens⟩ := items_opens hc cs
  obtain ⟨is, hitems, hends⟩ := items_program hsync false 0 (c :: cs)
  rcases scanProgram_rest false (c :: cs) with hrest | ⟨b, rest, hrest, hb⟩
  · rw [hrest, hfirst, stream_opens hopens] at hstream
    exact List.cons_ne_nil _ _ hstream
  · rw [hrest, items_blank hb] at hitems hstream
    rw [stream_blank (by decide) false hb] at hstream
    have hsplit := stream_append .outside false is (.text b :: items 0 rest)
    rw [← hitems, hstream] at hsplit
    cases is with
    | nil =>
      rw [List.nil_append, hfirst] at hitems
      obtain ⟨rfl, -⟩ := List.cons.inj hitems
      exact Bool.false_ne_true (hopens.symm.trans hb)
    | cons i' is =>
      rw [hfirst, List.cons_append, List.cons.injEq] at hitems
      obtain ⟨rfl, -⟩ := hitems
      by_cases hinside : (ends .outside false (i :: is)).1 = .inside
      · have hwithin := ends_within (by simp) (i :: is) hinside
        have hquote : .text quote ∈ i :: is := by
          rcases hends with hnil | hmem | hout
          · rw [hrest] at hnil
            exact absurd hnil (List.cons_ne_nil b rest)
          · exact hmem
          · exact absurd hinside hout
        have htotal := le_total (mem_stream isBlank_quote .outside false hquote)
        rw [weight_letter isBlank_quote] at htotal
        rw [hinside, hwithin, stream_inside, List.append_cons] at hsplit
        exact (Ahead.insideBetween hb htotal).stream_ne (items 0 rest) hsplit.symm
      · rw [stream_blank hinside _ hb, stream_opens hopens] at hsplit
        have hlength := congrArg List.length hsplit
        simp only [List.length_append, List.length_cons] at hlength
        omega

/-! Words that are written as they are, and a word in quotes. -/

structure IsPlain (word : List α) : Prop where
  nonempty : word ≠ []
  no_blank : ∀ c ∈ word, isBlank c = false
  no_quote : quote ∉ word

lemma arguments_plain {word : List α} (hword : IsPlain word) {b : α} (hb : isBlank b = true)
    (rest : List α) :
    arguments (word ++ b :: rest) = word :: arguments rest := by
  obtain ⟨c, cs, rfl⟩ := List.exists_cons_of_ne_nil hword.nonempty
  have hscan := scanArg_plain hword.no_blank hword.no_quote (follows_cons hb rest) 0
  rw [List.cons_append] at hscan ⊢
  rw [arguments_cons (hword.no_blank c List.mem_cons_self), hscan]
  simp only [List.replicate_zero, List.nil_append, arguments_blank hb]

lemma scanProgram_stops {word : List α} (hquote : quote ∉ word)
    (hblank : ∃ c ∈ word, isBlank c = true)
    (rest : List α) : (scanProgram false (word ++ rest)).1.length < word.length := by
  induction word with
  | nil => simp at hblank
  | cons c word ih =>
    rw [List.mem_cons, not_or] at hquote
    rw [List.cons_append, scanProgram, if_neg (Ne.symm hquote.1)]
    cases hc : isBlank c with
    | true => simp
    | false =>
      obtain ⟨d, hd, hdblank⟩ := hblank
      have hword : d ∈ word := by
        apply (List.mem_cons.mp hd).resolve_left
        rintro rfl
        rw [hc] at hdblank
        cases hdblank
      have hshort := ih hquote.2 ⟨d, hword, hdblank⟩
      simpa [prepend] using hshort

lemma scanArg_quoted {word : List α} (hquote : quote ∉ word) {b : α} (hb : isBlank b = true)
    (rest : List α) (n : ℕ) :
    ((List.replicate n slash ++ word).getLast? ≠ some slash ∧
        scanArg .inside n (word ++ quote :: b :: rest) =
          (List.replicate n slash ++ word, b :: rest)) ∨
      (List.replicate n slash ++ word).getLast? = some slash ∧
        (quote ∈ (scanArg .inside n (word ++ quote :: b :: rest)).1 ∨
          (scanArg .inside n (word ++ quote :: b :: rest)).1.length < n + word.length) := by
  induction word generalizing n with
  | nil =>
    have hne : (quote : α) ≠ slash := quote_ne_slash
    have hclose : scanArg .closing 0 (b :: rest) = ([], b :: rest) :=
      scanArg_follows (follows_cons hb rest) (by decide) 0
    rw [List.nil_append, List.append_nil, scanArg, if_neg hne, if_pos rfl, if_neg (by simp),
      Quoting.toggle, hclose]
    by_cases hzero : n = 0
    · left
      simp [hzero, prepend]
    · right
      refine ⟨by simp [List.getLast?_replicate, hzero], ?_⟩
      split_ifs
      · left
        simp [prepend]
      · right
        simp only [prepend, List.length_append, List.length_replicate, List.length_nil]
        omega
  | cons c word ih =>
    rw [List.mem_cons, not_or] at hquote
    have hne : c ≠ quote := Ne.symm hquote.1
    rw [List.cons_append, scanArg]
    by_cases hslash : c = slash
    · have hrec := ih hquote.2 (n + 1)
      rw [List.replicate_succ', List.append_assoc, List.singleton_append] at hrec
      rw [if_pos hslash, hslash, Quoting.settle, List.length_cons,
        Nat.add_comm word.length, ← Nat.add_assoc]
      exact hrec
    · have hlast : (List.replicate n slash ++ c :: word).getLast? = some slash ↔
          word.getLast? = some slash := by
        cases word with
        | nil => simp [hslash]
        | cons d word => simp [List.getLast?_append, List.getLast?_cons_cons]
      have hrec := ih hquote.2 0
      rw [List.replicate_zero, List.nil_append] at hrec
      rw [ne_eq, hlast, if_neg hslash, if_neg hne, if_neg (by simp), Quoting.settle]
      rcases hrec with ⟨hne, heq⟩ | ⟨heq, hdiffers⟩
      · left
        refine ⟨hne, ?_⟩
        rw [heq]
        simp [prepend]
      · right
        refine ⟨heq, hdiffers.imp (fun hmem => ?_) fun hlt => ?_⟩
        · simp [prepend, hmem]
        · simp only [prepend, List.length_append, List.length_replicate, List.length_cons,
            List.length_nil]
          omega

theorem arguments_quoted_iff {word : List α} (hquote : quote ∉ word) {b : α} (hb : isBlank b = true)
    (rest : List α)
    (args : List (List α)) :
    arguments (quote :: (word ++ quote :: b :: rest)) = word :: args ↔
      word.getLast? ≠ some slash ∧ arguments rest = args := by
  rw [arguments_cons isBlank_quote, scanArg_opening, List.cons.injEq]
  rcases scanArg_quoted hquote hb rest 0 with ⟨hlast, heq⟩ | ⟨hlast, hdiffers⟩
  · rw [heq, arguments_blank hb]
    simp_all
  · rw [List.replicate_zero, List.nil_append] at hlast
    apply iff_of_false
    · rintro ⟨hname, -⟩
      rw [hname] at hdiffers
      rcases hdiffers with hmem | hlt
      · exact hquote hmem
      · omega
    · exact fun h => h.1 hlast

end Catter.Library.CommandLine
