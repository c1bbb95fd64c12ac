import Mathlib.Algebra.BigOperators.Group.List.Basic
import Mathlib.Algebra.Order.BigOperators.Group.List
import Mathlib.Tactic

/-! Command lines whose quotes protect blanks and whose backslashes protect quotes: the program
name, the arguments behind it, and what is left of both in a stream of letters. -/

namespace Catter.Library.CommandLine

class Letters (α : Type) where
  quote : α
  slash : α
  isBlank : α → Bool
  quote_ne_slash : quote ≠ slash
  isBlank_quote : isBlank quote = false
  isBlank_slash : isBlank slash = false

open Letters

-- `closing`: right after a quote that ended a quoted part.
inductive Quoting
  | outside | inside | closing
deriving DecidableEq

namespace Quoting

def settle : Quoting → Quoting
  | inside => inside
  | outside | closing => outside

def toggle : Quoting → Quoting
  | inside => closing
  | outside | closing => inside

lemma settle_eq_inside {q : Quoting} : q.settle = inside ↔ q = inside := by
  cases q <;> simp [settle]

lemma toggle_eq_inside {q : Quoting} : q.toggle = inside ↔ q ≠ inside := by
  cases q <;> simp [toggle]

lemma settle_of_ne_closing {q : Quoting} (h : q ≠ closing) : q.settle = q := by
  cases q <;> simp_all [settle]

end Quoting

variable {α : Type} [Letters α]

lemma ne_of_isBlank {c d : α} (hc : isBlank c = true) (hd : isBlank d = false) : c ≠ d := by
  rintro rfl
  rw [hc] at hd
  exact Bool.false_ne_true hd.symm

variable [DecidableEq α]

def prepend (cs : List α) (scanned : List α × List α) : List α × List α :=
  (cs ++ scanned.1, scanned.2)

-- The program name: quotes only protect blanks, and backslashes are ordinary.
def scanProgram (inQuotes : Bool) : List α → List α × List α
  | [] => ([], [])
  | c :: cs =>
    if c = quote then scanProgram (!inQuotes) cs
    else if !inQuotes && isBlank c then ([], c :: cs)
    else prepend [c] (scanProgram inQuotes cs)

-- An argument, after `slashes` backslashes whose meaning is still open: a quote halves them, and
-- an odd one makes the quote an ordinary letter. So does a quote that ended a quoted part right
-- before, and the part goes on.
def scanArg (quoting : Quoting) (slashes : ℕ) : List α → List α × List α
  | [] => (List.replicate slashes slash, [])
  | c :: cs =>
    if c = slash then scanArg quoting.settle (slashes + 1) cs
    else if c = quote then
      if quoting = .closing ∧ slashes = 0 then prepend [quote] (scanArg .inside 0 cs)
      else if slashes % 2 = 1 then
        prepend (List.replicate (slashes / 2) slash ++ [quote]) (scanArg quoting.settle 0 cs)
      else prepend (List.replicate (slashes / 2) slash) (scanArg quoting.toggle 0 cs)
    else if quoting ≠ .inside ∧ isBlank c then (List.replicate slashes slash, c :: cs)
    else prepend (List.replicate slashes slash ++ [c]) (scanArg quoting.settle 0 cs)

def scanArgs : ℕ → List α → List (List α)
  | 0, _ => []
  | fuel + 1, cs =>
    match cs.dropWhile isBlank with
    | [] => []
    | c :: cs =>
      let scanned := scanArg .outside 0 (c :: cs)
      scanned.1 :: scanArgs fuel scanned.2

def arguments (cs : List α) : List (List α) := scanArgs cs.length cs

def splitLine (line : List α) : List α × List (List α) :=
  let scanned := scanProgram false line
  (scanned.1, arguments scanned.2)

/-! What the scanners do with each kind of text. -/

def Follows (rest : List α) : Prop := ∀ c ∈ rest.head?, isBlank c = true

omit [DecidableEq α] in
lemma follows_cons {b : α} (hb : isBlank b = true) (rest : List α) : Follows (b :: rest) := by
  rintro c hc
  rwa [← Option.some.inj hc]

omit [DecidableEq α] in
lemma follows_nil : Follows ([] : List α) := fun c hc => absurd hc (Option.not_mem_none c)

lemma scanArg_follows {rest : List α} (hrest : Follows rest) {quoting : Quoting}
    (hq : quoting ≠ .inside) (n : ℕ) :
    scanArg quoting n rest = (List.replicate n slash, rest) := by
  cases rest with
  | nil => rfl
  | cons b rest =>
    have hb : isBlank b = true := hrest b rfl
    rw [scanArg, if_neg (ne_of_isBlank hb isBlank_slash), if_neg (ne_of_isBlank hb isBlank_quote),
      if_pos ⟨hq, hb⟩]

lemma scanArg_slashes {quoting : Quoting} (hq : quoting ≠ .closing) (n m : ℕ) (cs : List α) :
    scanArg quoting m (List.replicate n slash ++ cs) = scanArg quoting (m + n) cs := by
  induction n generalizing m with
  | zero => rfl
  | succ n ih =>
    rw [List.replicate_succ, List.cons_append, scanArg, if_pos rfl, Quoting.settle_of_ne_closing hq,
      ih, Nat.succ_add_eq_add_succ]

lemma scanArg_opening (cs : List α) : scanArg .outside 0 (quote :: cs) = scanArg .inside 0 cs := by
  rw [scanArg, if_neg quote_ne_slash, if_pos rfl, if_neg (by simp), if_neg (by decide)]
  rfl

lemma scanArg_closing (n : ℕ) (cs : List α) :
    scanArg .inside (n * 2) (quote :: cs) =
      prepend (List.replicate n slash) (scanArg .closing 0 cs) := by
  have hodd : ¬ n * 2 % 2 = 1 := by omega
  have hhalf : n * 2 / 2 = n := by omega
  rw [scanArg, if_neg quote_ne_slash, if_pos rfl, if_neg (by simp), if_neg hodd, hhalf]
  rfl

lemma scanArg_escaped {quoting : Quoting} (hq : quoting ≠ .closing) (n : ℕ) (cs : List α) :
    scanArg quoting (n * 2 + 1) (quote :: cs) =
      prepend (List.replicate n slash ++ [quote]) (scanArg quoting 0 cs) := by
  have hodd : (n * 2 + 1) % 2 = 1 := by omega
  have hhalf : (n * 2 + 1) / 2 = n := by omega
  rw [scanArg, if_neg quote_ne_slash, if_pos rfl, if_neg (by simp), if_pos hodd, hhalf,
    Quoting.settle_of_ne_closing hq]

lemma scanArg_letter {quoting : Quoting} {c : α} (hslash : c ≠ slash) (hquote : c ≠ quote)
    (hc : quoting = .inside ∨ isBlank c = false) (n : ℕ) (cs : List α) :
    scanArg quoting n (c :: cs) =
      prepend (List.replicate n slash ++ [c]) (scanArg quoting.settle 0 cs) := by
  have hgoes : ¬ (quoting ≠ .inside ∧ isBlank c = true) := by
    rintro ⟨hq, hblank⟩
    exact hc.elim hq fun hc => Bool.false_ne_true (hc.symm.trans hblank)
  rw [scanArg, if_neg hslash, if_neg hquote, if_neg hgoes]

lemma scanArg_plain {word : List α} (hblank : ∀ c ∈ word, isBlank c = false) (hquote : quote ∉ word)
    {rest : List α} (hrest : Follows rest) (n : ℕ) :
    scanArg .outside n (word ++ rest) = (List.replicate n slash ++ word, rest) := by
  induction word generalizing n with
  | nil =>
    rw [List.nil_append, scanArg_follows hrest (by decide), List.append_nil]
  | cons c word ih =>
    obtain ⟨hc, hword⟩ := List.forall_mem_cons.mp hblank
    rw [List.mem_cons, not_or] at hquote
    rw [List.cons_append]
    by_cases hslash : c = slash
    · rw [scanArg, if_pos hslash, Quoting.settle, ih hword hquote.2, hslash, List.replicate_succ']
      simp
    · rw [scanArg_letter hslash (Ne.symm hquote.1) (Or.inr hc), Quoting.settle, ih hword hquote.2]
      simp [prepend]

lemma scanProgram_plain {word : List α} (hblank : ∀ c ∈ word, isBlank c = false)
    (hquote : quote ∉ word) {rest : List α} (hrest : Follows rest) :
    scanProgram false (word ++ rest) = (word, rest) := by
  induction word with
  | nil =>
    cases rest with
    | nil => rfl
    | cons b rest =>
      have hb : isBlank b = true := hrest b rfl
      rw [List.nil_append, scanProgram, if_neg (ne_of_isBlank hb isBlank_quote), hb]
      rfl
  | cons c word ih =>
    obtain ⟨hc, hword⟩ := List.forall_mem_cons.mp hblank
    rw [List.mem_cons, not_or] at hquote
    rw [List.cons_append, scanProgram, if_neg (Ne.symm hquote.1), if_neg (by simp [hc]),
      ih hword hquote.2]
    rfl

lemma scanProgram_quoted {word : List α} (hquote : quote ∉ word) {rest : List α}
    (hrest : Follows rest) :
    scanProgram true (word ++ quote :: rest) = (word, rest) := by
  induction word with
  | nil =>
    rw [List.nil_append, scanProgram, if_pos rfl]
    exact scanProgram_plain (List.forall_mem_nil _) List.not_mem_nil hrest
  | cons c word ih =>
    rw [List.mem_cons, not_or] at hquote
    rw [List.cons_append, scanProgram, if_neg (Ne.symm hquote.1), if_neg (by simp), ih hquote.2]
    rfl

lemma mem_scanProgram {c : α} {inQuotes : Bool} {cs : List α}
    (h : c ∈ (scanProgram inQuotes cs).1) :
    c ∈ cs := by
  induction cs generalizing inQuotes with
  | nil => exact h
  | cons d cs ih =>
    rw [scanProgram] at h
    split_ifs at h
    · exact List.mem_cons_of_mem d (ih h)
    · simp at h
    · rcases List.mem_cons.mp h with rfl | h
      · simp
      · exact List.mem_cons_of_mem _ (ih h)

/-! The arguments one after another. -/

lemma scanArg_rest_le (quoting : Quoting) (n : ℕ) (cs : List α) :
    (scanArg quoting n cs).2.length ≤ cs.length := by
  induction cs generalizing quoting n with
  | nil => exact le_rfl
  | cons c cs ih =>
    rw [scanArg, List.length_cons]
    split_ifs
    · exact (ih _ _).trans (Nat.le_succ _)
    · exact (ih _ _).trans (Nat.le_succ _)
    · exact (ih _ _).trans (Nat.le_succ _)
    · exact (ih _ _).trans (Nat.le_succ _)
    · exact le_rfl
    · exact (ih _ _).trans (Nat.le_succ _)

lemma scanArg_rest_lt {c : α} (hc : isBlank c = false) (cs : List α) :
    (scanArg .outside 0 (c :: cs)).2.length ≤ cs.length := by
  rw [scanArg]
  split_ifs with hslash hquote hclosing hblank hstop
  · exact scanArg_rest_le _ _ _
  · exact scanArg_rest_le _ _ _
  · exact scanArg_rest_le _ _ _
  · exact scanArg_rest_le _ _ _
  · rw [hc] at hstop
    simp at hstop
  · exact scanArg_rest_le _ _ _

lemma scanArgs_fuel (fuel fuel' : ℕ) (cs : List α) (h : cs.length ≤ fuel) (h' : cs.length ≤ fuel') :
    scanArgs fuel cs = scanArgs fuel' cs := by
  induction fuel generalizing fuel' cs with
  | zero =>
    obtain rfl := List.eq_nil_of_length_eq_zero (Nat.le_zero.mp h)
    cases fuel' <;> rfl
  | succ fuel ih =>
    cases fuel' with
    | zero =>
      obtain rfl := List.eq_nil_of_length_eq_zero (Nat.le_zero.mp h')
      rfl
    | succ fuel' =>
      rw [scanArgs, scanArgs]
      cases hdrop : cs.dropWhile isBlank with
      | nil => rfl
      | cons c rest =>
        have hc : isBlank c = false := by
          have hhead := List.head?_dropWhile_not isBlank cs
          rw [hdrop, List.head?_cons] at hhead
          simpa using hhead
        have hle := (List.dropWhile_suffix isBlank (l := cs)).length_le
        rw [hdrop, List.length_cons] at hle
        have hrest := scanArg_rest_lt hc rest
        simp only
        rw [ih fuel' _ (by omega) (by omega)]

lemma arguments_nil : arguments ([] : List α) = [] := rfl

lemma arguments_blank {c : α} (hc : isBlank c = true) (cs : List α) :
    arguments (c :: cs) = arguments cs := by
  have hfuel := scanArgs_fuel cs.length (cs.length + 1) cs le_rfl (Nat.le_succ _)
  rw [arguments, arguments, hfuel, List.length_cons, scanArgs, scanArgs,
    List.dropWhile_cons_of_pos hc]

lemma arguments_cons {c : α} (hc : isBlank c = false) (cs : List α) :
    arguments (c :: cs) =
      (scanArg .outside 0 (c :: cs)).1 :: arguments (scanArg .outside 0 (c :: cs)).2 := by
  have hdrop : (c :: cs).dropWhile isBlank = c :: cs := by
    rw [List.dropWhile_cons_of_neg]
    rw [hc]
    exact Bool.false_ne_true
  rw [arguments, List.length_cons, scanArgs, hdrop]
  simp only
  rw [scanArgs_fuel cs.length _ _ (scanArg_rest_lt hc cs) le_rfl]
  rfl

end Catter.Library.CommandLine
