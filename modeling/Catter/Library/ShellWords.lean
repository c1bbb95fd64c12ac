import Mathlib.Data.List.TakeWhile
import Mathlib.Tactic

/-! The words of a line of the POSIX shell, as far as the line alone fixes them, and the operands
among the words of a utility whose options take no values. -/

namespace Catter.Library.ShellWords

-- What a letter can mean. An expansion begins with `$` or with a backquote, and `star` is any
-- pattern of one letter.
inductive Role
  | plain | blank | newline | operator | expansion | escape | single | double
  | comment | tilde | star | opening
  | closing | negation | slash | dash
deriving DecidableEq

-- The letters that lose their own meaning wherever they stand.
def Role.special : Role → Bool
  | blank | newline | operator | expansion | escape | single | double => true
  | plain | comment | tilde | star | opening | closing | negation | slash | dash => false

inductive Mode (α : Type*)
  | outside | escaped | single | double
  | doubleEscaped (escape : α)

-- `quotes` stands for a quoted part, which makes a word also where it is empty.
inductive Item (α : Type*)
  | letter (a : α) (quoted : Bool)
  | gap
  | quotes
deriving DecidableEq

namespace Item

variable {α : Type*}

def isGap : Item α → Bool
  | gap => true
  | letter _ _ | quotes => false

def isBare : Item α → Bool
  | letter _ quoted => ! quoted
  | gap | quotes => false

def marked : Item α → Option (α × Bool)
  | letter a quoted => some (a, quoted)
  | gap | quotes => none

end Item

variable {α : Type*} (role : α → Role)

-- Nothing where the words depend on more than the line: operators, expansions, and a quotation that
-- does not end. `start` says that a word can begin here.
def items : Mode α → Bool → List α → Option (List (Item α))
  | .outside, _, [] => some []
  | .escaped, _, [] | .single, _, [] | .double, _, [] | .doubleEscaped _, _, [] => none
  | .outside, start, a :: as =>
    match role a with
    | .blank => (items .outside true as).map (.gap :: ·)
    | .newline | .operator | .expansion => none
    | .escape => items .escaped start as
    | .single => (items .single false as).map (.quotes :: ·)
    | .double => (items .double false as).map (.quotes :: ·)
    | .comment =>
      if start then if as.any fun b => role b = .newline then none else some []
      else (items .outside false as).map (.letter a false :: ·)
    | .plain | .tilde | .star | .opening | .closing | .negation | .slash | .dash =>
      (items .outside false as).map (.letter a false :: ·)
  | .escaped, start, a :: as =>
    if role a = .newline then items .outside start as
      else (items .outside false as).map (.letter a true :: ·)
  | .single, _, a :: as =>
    if role a = .single then items .outside false as
      else (items .single false as).map (.letter a true :: ·)
  | .double, _, a :: as =>
    match role a with
    | .double => items .outside false as
    | .expansion => none
    | .escape => items (.doubleEscaped a) false as
    | _ => (items .double false as).map (.letter a true :: ·)
  | .doubleEscaped escape, _, a :: as =>
    match role a with
    | .newline => items .double false as
    | .expansion | .escape | .double => (items .double false as).map (.letter a true :: ·)
    | _ => (items .double false as).map fun its => .letter escape true :: .letter a true :: its

def groups (its : List (Item α)) : List (List (Item α)) :=
  (its.splitOnP Item.isGap).filter fun word => ! word.isEmpty

def letters (its : List (Item α)) : List (α × Bool) := its.filterMap Item.marked

def isSlash : Item α → Bool
  | .letter a quoted => role a = .slash && ! quoted
  | .gap | .quotes => false

-- A home directory is put in only if nothing of the name in front of the slash is quoted.
def isHome : List (Item α) → Bool
  | .letter a false :: its =>
    role a = .tilde && (its.takeWhile fun it => ! isSlash role it).all Item.isBare
  | _ => false

-- The first letter belongs to the bracket, whatever it is.
def closesBehind : List (α × Bool) → Bool
  | [] => false
  | a :: as =>
    role a.1 ≠ .slash && (as.takeWhile fun b => role b.1 ≠ .slash).any fun b =>
      role b.1 = .closing && ! b.2

def closes : List (α × Bool) → Bool
  | [] => false
  | a :: as => if role a.1 = .negation ∧ a.2 = false then closesBehind role as
    else closesBehind role (a :: as)

def isPattern : List (α × Bool) → Bool
  | [] => false
  | (a, quoted) :: as => ! quoted && (role a = .star || role a = .opening && closes role as) ||
    isPattern as

def fixed (word : List (Item α)) : Bool := ! isHome role word && ! isPattern role (letters word)

def lineWords (line : List α) : Option (List (List α)) :=
  (items role .outside true line).bind fun its =>
    if (groups its).all (fixed role) then
      some ((groups its).map fun word => (letters word).map Prod.fst) else none

-- A single dash is an operand, and two end the options.
def operands : List (List α) → List (List α)
  | [] => []
  | [a, b] :: args =>
    if role a = .dash then if role b = .dash then args else operands args
    else [a, b] :: args
  | (a :: b :: c :: more) :: args => if role a = .dash then operands args
    else (a :: b :: c :: more) :: args
  | [] :: args => [] :: args
  | [a] :: args => [a] :: args

/-! Words without quotes. -/

def bare (word : List α) : List (Item α) := word.map fun a => .letter a false

structure PlainWord (word : List α) : Prop where
  nonempty : word ≠ []
  letters : ∀ a ∈ word, (role a).special = false
  start : ∀ a ∈ word.head?, role a ≠ .comment ∧ role a ≠ .tilde
  pattern : isPattern role (word.map fun a => (a, false)) = false

@[simp] lemma letters_bare (word : List α) : letters (bare word) = word.map fun a =>
    (a, false) := by
  simp [letters, bare, List.filterMap_map, Function.comp_def, Item.marked, List.filterMap_eq_map']

variable {role}

lemma items_cons_of_plain {a : α} (h : (role a).special = false) {start : Bool}
    (hstart : start = true → role a ≠ .comment)
    (as : List α) : items role .outside start (a :: as) =
      (items role .outside false as).map (.letter a false :: ·) := by
  rw [items]
  cases hrole : role a with
  | blank | newline | operator | expansion | escape | single | double =>
    rw [hrole] at h
    cases h
  | comment => exact if_neg fun h => hstart h hrole
  | plain | tilde | star | opening | closing | negation | slash | dash => rfl

lemma items_bare_append {word : List α} (hletters : ∀ a ∈ word, (role a).special = false)
    {start : Bool}
    (hstart : start = true → ∀ a ∈ word.head?, role a ≠ .comment) (hne : word ≠ [])
    (rest : List α) :
    items role .outside start (word ++ rest) =
      (items role .outside false rest).map (bare word ++ ·) := by
  induction word generalizing start with
  | nil => exact absurd rfl hne
  | cons a word ih =>
    rw [List.cons_append, items_cons_of_plain (hletters a List.mem_cons_self) fun h =>
      hstart h a rfl]
    cases word with
    | nil => rfl
    | cons b word =>
      rw [ih (fun c hc => hletters c (List.mem_cons_of_mem a hc))
        (fun h => absurd h Bool.false_ne_true)
        (List.cons_ne_nil b word), Option.map_map]
      rfl

lemma isGap_bare (word : List α) : ∀ it ∈ bare word, it.isGap = false := by
  intro it hit
  obtain ⟨a, -, rfl⟩ := List.mem_map.mp hit
  rfl

lemma bare_ne_nil {word : List α} (h : word ≠ []) : bare word ≠ [] :=
  fun hnil => h (List.map_eq_nil_iff.mp hnil)

lemma groups_bare {word : List α} (h : word ≠ []) : groups (bare word) = [bare word] := by
  rw [groups, List.splitOnP_eq_singleton (isGap_bare word)]
  simp [bare_ne_nil h]

lemma groups_bare_gap {word : List α} (h : word ≠ []) (its : List (Item α)) :
    groups (bare word ++ .gap :: its) = bare word :: groups its := by
  rw [groups, List.splitOnP_append_cons_of_forall_mem (isGap_bare word) .gap rfl]
  simp [groups, bare_ne_nil h]

lemma all_isBare_takeWhile (word : List α) (q : Item α → Bool) :
    ((bare word).takeWhile q).all Item.isBare = true := by
  rw [List.all_eq_true]
  intro it hit
  obtain ⟨a, -, rfl⟩ := List.mem_map.mp ((List.takeWhile_prefix q).subset hit)
  rfl

lemma isHome_bare (word : List α) : isHome role (bare word) = word.head?.any fun a =>
    role a = .tilde := by
  cases word with
  | nil => rfl
  | cons a word =>
    have hbare := all_isBare_takeWhile word fun it => ! isSlash role it
    rw [bare, List.map_cons, isHome, List.head?_cons, Option.any_some, ← bare, hbare, Bool.and_true]

lemma fixed_bare_iff (word : List α) :
    fixed role (bare word) = true ↔
      (∀ a ∈ word.head?, role a ≠ .tilde) ∧ isPattern role (word.map fun a => (a, false)) =
        false := by
  rw [fixed, isHome_bare, letters_bare, Bool.and_eq_true, Bool.not_eq_true', Bool.not_eq_true']
  cases word.head? <;> simp

lemma PlainWord.fixed {word : List α} (h : PlainWord role word) : fixed role (bare word) = true :=
  (fixed_bare_iff word).mpr ⟨fun a ha => (h.start a ha).2, h.pattern⟩

lemma PlainWord.items_append {word : List α} (h : PlainWord role word) (start : Bool)
    (rest : List α) :
    items role .outside start (word ++ rest) =
      (items role .outside false rest).map (bare word ++ ·) :=
  items_bare_append h.letters (fun _ a ha => (h.start a ha).1) h.nonempty rest

theorem lineWords_plain_append {word : List α} (h : PlainWord role word) {b : α}
    (hb : role b = .blank) (rest : List α) :
    lineWords role (word ++ b :: rest) = (lineWords role rest).map (word :: ·) := by
  have hblank : items role .outside false (b :: rest) =
      (items role .outside true rest).map (.gap :: ·) := by
    rw [items, hb]
  rw [lineWords, h.items_append, hblank, lineWords]
  cases items role .outside true rest with
  | none => rfl
  | some its =>
    simp only [Option.map_some, Option.bind_some, groups_bare_gap h.nonempty, List.all_cons,
      h.fixed, Bool.true_and,
      List.map_cons, letters_bare, List.map_map, Function.comp_def, List.map_id']
    split_ifs <;> rfl

theorem lineWords_of_plain {word : List α} (h : PlainWord role word) :
    lineWords role word = some [word] := by
  have hitems := h.items_append true []
  rw [List.append_nil] at hitems
  rw [lineWords, hitems]
  simp [items, groups_bare h.nonempty, h.fixed, Function.comp_def]

/-! A quotation takes letters away. -/

def Mode.pending : Mode α → ℕ
  | .outside | .escaped | .single | .double => 0
  | .doubleEscaped _ => 1

lemma letters_cons_letter (a : α) (quoted : Bool) (its : List (Item α)) :
    letters (.letter a quoted :: its) = (a, quoted) :: letters its := rfl

lemma letters_of_map {found : Option (List (Item α))} {f : List (Item α) → List (Item α)}
    {its : List (Item α)} {bound : ℕ}
    (n : ℕ) (hf : ∀ rest, (letters (f rest)).length ≤ (letters rest).length + n)
    (hfound : ∀ rest, found = some rest → (letters rest).length ≤ bound)
    (h : found.map f = some its) :
    (letters its).length ≤ bound + n := by
  obtain ⟨rest, hrest, rfl⟩ := Option.map_eq_some_iff.mp h
  exact (hf rest).trans (Nat.add_le_add_right (hfound rest hrest) n)

lemma letters_length_le_of_special {as : List α}
    (hrest : ∀ {mode : Mode α} {start : Bool} {its : List (Item α)}, items role mode start as =
      some its →
      (letters its).length ≤ as.length + mode.pending)
    {a : α} {start : Bool} {its : List (Item α)}
    (hplain : ¬ ((role a).special = false ∧ (start = true → role a ≠ .comment)))
    (h : items role .outside start (a :: as) = some its) : (letters its).length ≤ as.length := by
  rw [items] at h
  cases hrole : role a with
  | blank =>
    simp only [hrole] at h
    obtain ⟨rest, hitems, rfl⟩ := Option.map_eq_some_iff.mp h
    exact hrest hitems
  | newline | operator | expansion => simp only [hrole, reduceCtorEq] at h
  | escape =>
    simp only [hrole] at h
    exact hrest h
  | single | double =>
    simp only [hrole] at h
    obtain ⟨rest, hitems, rfl⟩ := Option.map_eq_some_iff.mp h
    exact hrest hitems
  | comment =>
    have hstart : start = true := by
      by_contra hother
      exact hplain ⟨by rw [hrole]; rfl, fun hs => absurd hs hother⟩
    simp only [hrole, hstart, if_true] at h
    split_ifs at h
    rw [← Option.some.inj h]
    exact Nat.zero_le _
  | plain | tilde | star | opening | closing | negation | slash | dash =>
    exact absurd ⟨by rw [hrole]; rfl, fun _ => by rw [hrole]; decide⟩ hplain

lemma letters_length_le {mode : Mode α} {start : Bool} {line : List α} {its : List (Item α)}
    (h : items role mode start line = some its) :
    (letters its).length ≤ line.length + mode.pending := by
  induction line generalizing mode start its with
  | nil =>
    cases mode <;> simp only [items, reduceCtorEq, Option.some.injEq] at h
    rw [← h]
    exact Nat.zero_le _
  | cons a as ih =>
    have letter {mode : Mode α} {start quoted : Bool} {b : α}
        (h : (items role mode start as).map (.letter b quoted :: ·) = some its) :
        (letters its).length ≤ as.length + mode.pending + 1 :=
      letters_of_map 1 (fun rest => le_rfl) (fun rest => ih) h
    rw [List.length_cons]
    cases mode with
    | outside =>
      by_cases hplain : (role a).special = false ∧ (start = true → role a ≠ .comment)
      · rw [items_cons_of_plain hplain.1 hplain.2] at h
        exact letter h
      · exact (letters_length_le_of_special ih hplain h).trans (Nat.le_succ _)
    | escaped =>
      rw [items] at h
      split_ifs at h
      · exact (ih h).trans (Nat.le_succ _)
      · exact letter h
    | single =>
      rw [items] at h
      split_ifs at h
      · exact (ih h).trans (Nat.le_succ _)
      · exact letter h
    | double =>
      rw [items] at h
      split at h
      · exact (ih h).trans (Nat.le_succ _)
      · cases h
      · exact ih h
      · exact letter h
    | doubleEscaped escape =>
      rw [items] at h
      split at h
      · exact (ih h).trans (Nat.le_add_right as.length 2)
      · exact (letter h).trans (Nat.le_succ _)
      · exact (letter h).trans (Nat.le_succ _)
      · exact (letter h).trans (Nat.le_succ _)
      · exact letters_of_map 2 (fun rest => le_rfl) (fun rest => ih) h

lemma bare_of_length {start : Bool} {line : List α} {its : List (Item α)}
    (h : items role .outside start line = some its) (hlength : (letters its).length = line.length) :
    its = bare line ∧ (∀ a ∈ line, (role a).special = false) ∧
      (start = true → ∀ a ∈ line.head?, role a ≠ .comment) := by
  induction line generalizing start its with
  | nil =>
    rw [items, Option.some.injEq] at h
    exact ⟨h.symm, by simp, by simp⟩
  | cons a as ih =>
    rw [List.length_cons] at hlength
    by_cases hplain : (role a).special = false ∧ (start = true → role a ≠ .comment)
    · rw [items_cons_of_plain hplain.1 hplain.2] at h
      obtain ⟨rest, hrest, rfl⟩ := Option.map_eq_some_iff.mp h
      rw [letters_cons_letter, List.length_cons, Nat.add_right_cancel_iff] at hlength
      obtain ⟨hbare, hletters, -⟩ := ih hrest hlength
      refine ⟨by rw [hbare]; rfl, ?_, ?_⟩
      · intro b hb
        rcases List.mem_cons.mp hb with rfl | hb
        · exact hplain.1
        · exact hletters b hb
      · intro hstart b hb
        rw [← Option.some.inj hb]
        exact hplain.2 hstart
    · have hshort := letters_length_le_of_special letters_length_le hplain h
      omega

lemma flatten_splitOnP (its : List (Item α)) :
    (its.splitOnP Item.isGap).flatten = its.filter fun it => ! it.isGap := by
  induction its with
  | nil => rfl
  | cons it its ih =>
    rw [List.splitOnP_cons_eq_if_modifyHead]
    cases hgap : it.isGap with
    | true => simp [ih, hgap]
    | false =>
      cases hsplit : its.splitOnP Item.isGap with
      | nil => exact absurd hsplit (List.splitOnP_ne_nil _ _)
      | cons word rest =>
        rw [hsplit] at ih
        simp [hgap, ← ih]

lemma flatten_groups (its : List (Item α)) : (groups its).flatten = its.filter fun it =>
    ! it.isGap := by
  rw [groups, ← flatten_splitOnP]
  induction its.splitOnP Item.isGap with
  | nil => rfl
  | cons word rest ih => cases word <;> simp [ih]

lemma letters_flatten_groups (its : List (Item α)) :
    letters (groups its).flatten = letters its := by
  rw [flatten_groups, letters, List.filterMap_filter, letters]
  congr 1
  funext it
  cases it <;> rfl

theorem lineWords_eq_singleton_iff {word : List α} : lineWords role word = some [word] ↔
    PlainWord role word := by
  refine ⟨?_, lineWords_of_plain⟩
  intro h
  obtain ⟨its, hits, hwords⟩ := Option.bind_eq_some_iff.mp h
  split_ifs at hwords with hfixed
  rw [Option.some.injEq, List.map_eq_singleton_iff] at hwords
  obtain ⟨only, hgroups, honly⟩ := hwords
  have hletters := letters_flatten_groups its
  rw [hgroups, List.flatten_singleton] at hletters
  have hlength : (letters its).length = word.length := by
    rw [← hletters, ← honly, List.length_map]
  obtain ⟨rfl, hordinary, hstart⟩ := bare_of_length hits hlength
  have hne : word ≠ [] := by
    rintro rfl
    cases hgroups
  rw [groups_bare hne, List.all_cons, List.all_nil, Bool.and_true, fixed_bare_iff] at hfixed
  exact ⟨hne, hordinary, fun a ha => ⟨hstart rfl a ha, hfixed.1 a ha⟩, hfixed.2⟩

/-! Operands. -/

theorem operands_singleton_iff (word : List α) :
    operands role [word] = [word] ↔ word.length ≤ 1 ∨ ∀ a ∈ word.head?, role a ≠ .dash := by
  match word with
  | [] => simp [operands]
  | [a] => simp [operands]
  | [a, b] =>
    by_cases ha : role a = .dash
    · by_cases hb : role b = .dash <;> simp [operands, ha, hb]
    · simp [operands, ha]
  | a :: b :: c :: more =>
    by_cases ha : role a = .dash <;> simp [operands, ha]

end Catter.Library.ShellWords
