import Catter.Library.CommandLine

/-! The arguments of a command line as one stream, `none` at the beginning of each. Two scans of
one text from opposite quotes do not agree once one of them is ahead of the other. -/

namespace Catter.Library.CommandLine

open Letters

-- What backslashes leave of a text: ordinary letters, and quotes that begin or end a part.
inductive Item (α : Type)
  | text (c : α)
  | quote

variable {α : Type} [Letters α]

def items [DecidableEq α] (slashes : ℕ) : List α → List (Item α)
  | [] => List.replicate slashes (.text slash)
  | c :: cs =>
    if c = slash then items (slashes + 1) cs
    else if c = quote then
      if slashes % 2 = 1 then List.replicate (slashes / 2) (.text slash) ++ .text quote ::
        items 0 cs
      else List.replicate (slashes / 2) (.text slash) ++ .quote :: items 0 cs
    else List.replicate slashes (.text slash) ++ .text c :: items 0 cs

def opening (within : Bool) : List (Option α) := if within then [] else [none]

def stream (quoting : Quoting) (within : Bool) : List (Item α) → List (Option α)
  | [] => []
  | .text c :: is =>
    if quoting ≠ .inside ∧ isBlank c then stream .outside false is
    else opening within ++ some c :: stream quoting.settle true is
  | .quote :: is =>
    opening within ++
      if quoting = .closing then some quote :: stream .inside true is
        else stream quoting.toggle true is

def ends (quoting : Quoting) (within : Bool) : List (Item α) → Quoting × Bool
  | [] => (quoting, within)
  | .text c :: is =>
    if quoting ≠ .inside ∧ isBlank c then ends .outside false is else ends quoting.settle true is
  | .quote :: is => if quoting = .closing then ends .inside true is else ends quoting.toggle true is

def render (words : List (List α)) : List (Option α) :=
  words.flatMap fun word => none :: word.map some

lemma stream_append (quoting : Quoting) (within : Bool) (is is' : List (Item α)) :
    stream quoting within (is ++ is') =
      stream quoting within is ++ stream (ends quoting within is).1 (ends quoting within is).2
        is' := by
  induction is generalizing quoting within with
  | nil => rfl
  | cons i is ih =>
    cases i with
    | text c =>
      rw [List.cons_append, stream, stream, ends]
      split_ifs
      · exact ih _ _
      · rw [ih, List.append_assoc, List.cons_append]
    | quote =>
      rw [List.cons_append, stream, stream, ends]
      split_ifs
      · rw [ih, List.append_assoc, List.cons_append]
      · rw [ih, List.append_assoc]

lemma stream_slashes {quoting : Quoting} (n : ℕ) (hn : 0 < n → quoting ≠ .closing)
    (is : List (Item α)) :
    stream quoting true (List.replicate n (.text slash) ++ is) =
      List.replicate n (some slash) ++ stream quoting true is := by
  induction n with
  | zero => rfl
  | succ n ih =>
    have hquoting : quoting ≠ .closing := hn (Nat.succ_pos n)
    have hslash : ¬ (quoting ≠ .inside ∧ isBlank (slash : α) = true) := by simp [isBlank_slash]
    rw [List.replicate_succ, List.cons_append, stream, if_neg hslash,
      Quoting.settle_of_ne_closing hquoting,
      ih fun _ => hquoting]
    rfl

section Items

variable [DecidableEq α]

lemma items_succ (n : ℕ) (cs : List α) :
    ∃ c is, items (n + 1) cs = .text c :: is ∧ isBlank c = false := by
  induction cs generalizing n with
  | nil => exact ⟨slash, List.replicate n (.text slash), rfl, isBlank_slash⟩
  | cons c cs ih =>
    rw [items]
    split_ifs with hslash hquote hodd
    · exact ih (n + 1)
    · cases hhalf : (n + 1) / 2 with
      | zero => exact ⟨quote, items 0 cs, rfl, isBlank_quote⟩
      | succ m => exact ⟨slash, _, rfl, isBlank_slash⟩
    · cases hhalf : (n + 1) / 2 with
      | zero => omega
      | succ m => exact ⟨slash, _, rfl, isBlank_slash⟩
    · exact ⟨slash, _, rfl, isBlank_slash⟩

lemma stream_settle (quoting : Quoting) (n : ℕ) (cs : List α) :
    stream quoting true (items (n + 1) cs) = stream quoting.settle true (items (n + 1) cs) := by
  obtain ⟨c, is, hitems, hc⟩ := items_succ n cs
  have hsettle : quoting.settle.settle = quoting.settle := by cases quoting <;> rfl
  rw [hitems, stream, stream, if_neg (by simp [hc]), if_neg (by simp [hc]), hsettle]

lemma items_letter {c : α} (hslash : c ≠ slash) (hquote : c ≠ quote) (cs : List α) :
    items 0 (c :: cs) = .text c :: items 0 cs := by
  rw [items, if_neg hslash, if_neg hquote]
  rfl

lemma stream_items {quoting : Quoting} (n : ℕ) (hn : 0 < n → quoting ≠ .closing) (cs : List α) :
    stream quoting true (items n cs) =
      (scanArg quoting n cs).1.map some ++
        stream .outside false (items 0 (scanArg quoting n cs).2) := by
  induction cs generalizing quoting n with
  | nil =>
    have hslashes := stream_slashes n hn ([] : List (Item α))
    rw [List.append_nil] at hslashes
    rw [items, hslashes, scanArg, List.map_replicate]
    rfl
  | cons c cs ih =>
    rw [items, scanArg]
    by_cases hslash : c = slash
    · have hsettle : quoting.settle ≠ .closing := by cases quoting <;> decide
      rw [if_pos hslash, if_pos hslash, stream_settle, ih (n + 1) fun _ => hsettle]
    rw [if_neg hslash, if_neg hslash]
    by_cases hquote : c = quote
    · have hhalf : 0 < n / 2 → quoting ≠ .closing := fun h => hn (by omega)
      rw [if_pos hquote, if_pos hquote]
      by_cases hodd : n % 2 = 1
      · have hquoting : quoting ≠ .closing := hn (by omega)
        have hsettle : quoting.settle ≠ .closing := by cases quoting <;> decide
        rw [if_pos hodd, if_pos hodd, if_neg fun h => hquoting h.1,
          stream_slashes (n / 2) hhalf, stream,
          if_neg (by simp [isBlank_quote]), ih 0 fun _ => hsettle]
        simp [prepend, opening]
      · rw [if_neg hodd, if_neg hodd, stream_slashes (n / 2) hhalf, stream]
        by_cases hclosing : quoting = .closing
        · have hzero : n = 0 := by
            by_contra hne
            exact hn (by omega) hclosing
          rw [if_pos hclosing, if_pos ⟨hclosing, hzero⟩, ih 0 (by simp), hzero]
          simp [prepend, opening]
        · rw [if_neg hclosing, if_neg fun h => hclosing h.1, ih 0 (by simp)]
          simp [prepend, opening]
    · rw [if_neg hquote, if_neg hquote, stream_slashes n hn, stream]
      split_ifs with hstop
      · rw [items_letter hslash hquote, stream, if_pos ⟨by decide, hstop.2⟩, List.map_replicate]
      · have hsettle : quoting.settle ≠ .closing := by cases quoting <;> decide
        rw [ih 0 fun _ => hsettle]
        simp [prepend, opening]

lemma items_blank {c : α} (hc : isBlank c = true) (cs : List α) :
    items 0 (c :: cs) = .text c :: items 0 cs :=
  items_letter (ne_of_isBlank hc isBlank_slash) (ne_of_isBlank hc isBlank_quote) cs

def Opens : Item α → Prop
  | .text c => isBlank c = false
  | .quote => True

omit [DecidableEq α] in
lemma stream_opens {i : Item α} (hi : Opens i) (is : List (Item α)) :
    stream .outside false (i :: is) = none :: stream .outside true (i :: is) := by
  cases i with
  | text c =>
    have hc : isBlank c = false := hi
    rw [stream, stream, if_neg (by simp [hc]), if_neg (by simp [hc])]
    rfl
  | quote => rfl

lemma items_opens {c : α} (hc : isBlank c = false) (cs : List α) :
    ∃ i is, items 0 (c :: cs) = i :: is ∧ Opens i := by
  by_cases hslash : c = slash
  · obtain ⟨d, is, hitems, hd⟩ := items_succ 0 cs
    exact ⟨.text d, is, by rw [items, if_pos hslash, hitems], hd⟩
  by_cases hquote : c = quote
  · exact ⟨.quote, items 0 cs, by rw [items, if_neg hslash, if_pos hquote]; rfl, trivial⟩
  · exact ⟨.text c, items 0 cs, items_letter hslash hquote cs, hc⟩

lemma stream_arguments (cs : List α) : stream .outside false (items 0 cs) =
    render (arguments cs) := by
  induction hlength : cs.length using Nat.strong_induction_on generalizing cs with
  | _ n ih =>
    cases cs with
    | nil => rfl
    | cons c cs =>
      rw [List.length_cons] at hlength
      cases hc : isBlank c with
      | true =>
        rw [items_blank hc, stream, if_pos ⟨by decide, hc⟩, ih cs.length (by omega) cs rfl,
          arguments_blank hc]
      | false =>
        have hrest := scanArg_rest_lt hc cs
        obtain ⟨i, is, hitems, hi⟩ := items_opens hc cs
        rw [arguments_cons hc, hitems, stream_opens hi, ← hitems, stream_items 0 (by simp),
          ih _ (by omega) (scanArg .outside 0 (c :: cs)).2 rfl]
        rfl

end Items

/-! One scan ahead of the other: what it has given and the other has not. -/

def isMark : Option α → Bool
  | none => true
  | some c => isBlank c

-- Blanks weigh nothing, as a scan outside of quotes drops them.
def weight : Option α → ℕ
  | none => 1
  | some c => if isBlank c then 0 else 2

def total (ahead : List (Option α)) : ℕ := (ahead.map weight).sum

def Marked (ahead : List (Option α)) : Prop := ∃ s ∈ ahead, isMark s = true

structure Lasting (ahead : List (Option α)) : Prop where
  heavy : 2 ≤ total ahead
  lasts : ∃ before s behind, ahead = before ++ s :: behind ∧ isMark s = true ∧
    1 ≤ total (s :: behind)

-- The state of the scan ahead, that of the other, and the part of the stream between them.
inductive Ahead : Quoting → Bool → Quoting → Bool → List (Option α) → Prop
  | insideWithin {ahead : List (Option α)} (hmark : Marked ahead) (htotal : 2 ≤ total ahead) :
      Ahead .inside true .outside true ahead
  | insideBetween {ahead : List (Option α)} {b : α} (hb : isBlank b = true)
      (htotal : 2 ≤ total ahead) :
      Ahead .inside true .outside false (ahead ++ [some b])
  | insideClosing {ahead : List (Option α)} (hlasting : Lasting ahead) :
    Ahead .inside true .closing true ahead
  | outsideWithin {ahead : List (Option α)} (hlasting : Lasting ahead) :
    Ahead .outside true .inside true ahead
  | outsideBetween {ahead : List (Option α)} (htotal : 1 ≤ total ahead) :
    Ahead .outside false .inside true ahead
  | closingInside {ahead : List (Option α)} (hmark : Marked ahead) (htotal : 1 ≤ total ahead) :
      Ahead .closing true .inside true ahead

@[simp] lemma total_nil : total ([] : List (Option α)) = 0 := rfl

@[simp] lemma total_cons (s : Option α) (ahead : List (Option α)) :
    total (s :: ahead) = weight s + total ahead := by
  simp [total]

@[simp] lemma total_append (ahead ahead' : List (Option α)) :
    total (ahead ++ ahead') = total ahead + total ahead' := by
  simp [total]

@[simp] lemma weight_none : weight (none : Option α) = 1 := rfl

lemma weight_blank {c : α} (hc : isBlank c = true) : weight (some c) = 0 := by simp [weight, hc]

lemma weight_letter {c : α} (hc : isBlank c = false) : weight (some c) = 2 := by simp [weight, hc]

variable {ahead : List (Option α)} {c : α}

lemma Marked.append (h : Marked ahead) (ahead' : List (Option α)) : Marked (ahead ++ ahead') := by
  obtain ⟨s, hs, hmark⟩ := h
  exact ⟨s, List.mem_append_left ahead' hs, hmark⟩

lemma Marked.of_cons (hc : isBlank c = false) (h : Marked (some c :: ahead)) : Marked ahead := by
  obtain ⟨s, hs, hmark⟩ := h
  rcases List.mem_cons.mp hs with rfl | hs
  · rw [isMark, hc] at hmark
    exact absurd hmark Bool.false_ne_true
  · exact ⟨s, hs, hmark⟩

lemma Lasting.marked (h : Lasting ahead) : Marked ahead := by
  obtain ⟨before, s, behind, rfl, hmark, -⟩ := h.lasts
  exact ⟨s, by simp, hmark⟩

lemma Lasting.of_cons (hc : isBlank c = false) (h : Lasting (some c :: ahead)) :
    1 ≤ total ahead := by
  obtain ⟨before, s, behind, heq, hmark, htotal⟩ := h.lasts
  cases before with
  | nil =>
    rw [List.nil_append, List.cons.injEq] at heq
    rw [← heq.1, isMark, hc] at hmark
    exact absurd hmark Bool.false_ne_true
  | cons s' before =>
    rw [List.cons_append, List.cons.injEq] at heq
    rw [heq.2, total_append]
    omega

lemma Marked.lasting (h : Marked ahead) (hc : isBlank c = false) : Lasting (ahead ++ [some c]) := by
  have hweight := weight_letter hc
  obtain ⟨s, hs, hmark⟩ := h
  obtain ⟨before, behind, rfl⟩ := List.append_of_mem hs
  constructor
  · simp only [total_append, total_cons]
    omega
  · refine ⟨before, s, behind ++ [some c], by simp, hmark, ?_⟩
    simp only [total_append, total_cons]
    omega

lemma lasting_none (h : 1 ≤ total ahead) : Lasting (ahead ++ [none]) := by
  constructor
  · simp only [total_append, total_cons, weight_none]
    omega
  · exact ⟨ahead, none, [], rfl, rfl, le_rfl⟩

lemma ne_nil_of_total (h : 1 ≤ total ahead) : ahead ≠ [] := by
  rintro rfl
  rw [total_nil] at h
  omega

omit [Letters α] in
lemma cons_of_append_eq {s : Option α} {rest rest' : List (Option α)} (hne : ahead ≠ [])
    (h : ahead ++ rest = s :: rest') : ∃ ahead', ahead = s :: ahead' ∧ ahead' ++ rest = rest' := by
  cases ahead with
  | nil => exact absurd rfl hne
  | cons s' ahead' =>
    rw [List.cons_append, List.cons.injEq] at h
    exact ⟨ahead', by rw [h.1], h.2⟩

omit [Letters α] in
lemma concat_of_append_eq {s s' : Option α} {rest rest' : List (Option α)} (hne : ahead ≠ [])
    (h : ahead ++ s :: rest = s' :: rest') :
    ∃ ahead', ahead = s' :: ahead' ∧ ahead' ++ [s] ++ rest = rest' := by
  obtain ⟨ahead', hcons, hrest⟩ := cons_of_append_eq hne h
  exact ⟨ahead', hcons, by rw [← List.append_cons, hrest]⟩

omit [Letters α] in
lemma cons_of_concat_append_eq {s b : Option α} {rest rest' : List (Option α)} (hne : b ≠ s)
    (h : ahead ++ [b] ++ rest = s :: rest') :
    ∃ ahead', ahead = s :: ahead' ∧ ahead' ++ [b] ++ rest = rest' := by
  rw [List.append_assoc] at h
  have hahead : ahead ≠ [] := by
    rintro rfl
    rw [List.nil_append, List.singleton_append, List.cons.injEq] at h
    exact hne h.1
  obtain ⟨ahead', hcons, hrest⟩ := cons_of_append_eq hahead h
  exact ⟨ahead', hcons, by rw [List.append_assoc, hrest]⟩

lemma stream_blank {quoting : Quoting} (hq : quoting ≠ .inside) (within : Bool)
    (hc : isBlank c = true)
    (is : List (Item α)) : stream quoting within (.text c :: is) = stream .outside false is := by
  rw [stream, if_pos ⟨hq, hc⟩]

lemma stream_inside (c : α) (is : List (Item α)) :
    stream .inside true (.text c :: is) = some c :: stream .inside true is := by
  rw [stream, if_neg (by simp)]
  rfl

lemma stream_letter (quoting : Quoting) (within : Bool) (hc : isBlank c = false)
    (is : List (Item α)) :
    stream quoting within (.text c :: is) =
      opening within ++ some c :: stream quoting.settle true is := by
  rw [stream, if_neg (by simp [hc])]

lemma Ahead.ne_nil {q q' : Quoting} {w w' : Bool} (h : Ahead q w q' w' ahead) : ahead ≠ [] := by
  cases h with
  | insideWithin _ htotal => exact ne_nil_of_total (by omega)
  | insideBetween => simp
  | insideClosing hlasting | outsideWithin hlasting =>
      exact ne_nil_of_total (by have := hlasting.heavy; omega)
  | outsideBetween htotal | closingInside _ htotal => exact ne_nil_of_total htotal

lemma stream_letter_within (quoting : Quoting) (hc : isBlank c = false) (is : List (Item α)) :
    stream quoting true (.text c :: is) = some c :: stream quoting.settle true is :=
  stream_letter quoting true hc is

lemma heavy_concat (hc : isBlank c = false) (ahead : List (Option α)) :
    2 ≤ total (ahead ++ [some c]) := by
  rw [total_append, total_cons, weight_letter hc]
  omega

section Steps

variable {q q' : Quoting} {w w' : Bool} {is : List (Item α)}
  (ih : ∀ {q q' : Quoting} {w w' : Bool} {ahead : List (Option α)}, Ahead q w q' w' ahead →
    ahead ++ stream q w is ≠ stream q' w' is)
include ih

lemma Ahead.blank_ne (h : Ahead q w q' w' ahead) (hc : isBlank c = true) :
    ahead ++ stream q w (.text c :: is) ≠ stream q' w' (.text c :: is) := by
  have hweight := weight_blank hc
  intro heq
  cases h with
  | insideWithin hmark htotal =>
    rw [stream_inside, stream_blank (by decide) _ hc, List.append_cons] at heq
    exact ih (insideBetween hc htotal) heq
  | @insideBetween ahead b hb htotal =>
    rw [stream_inside, stream_blank (by decide) _ hc, List.append_cons] at heq
    apply ih (insideBetween hc _) heq
    rw [total_append]
    omega
  | insideClosing hlasting =>
    rw [stream_inside, stream_blank (by decide) _ hc, List.append_cons] at heq
    exact ih (insideBetween hc hlasting.heavy) heq
  | outsideWithin hlasting =>
    rw [stream_inside, stream_blank (by decide) _ hc] at heq
    obtain ⟨ahead', rfl, hrest⟩ := cons_of_append_eq (outsideWithin hlasting).ne_nil heq
    have htotal := hlasting.heavy
    rw [total_cons] at htotal
    exact ih (outsideBetween (by omega)) hrest
  | outsideBetween htotal =>
    rw [stream_inside, stream_blank (by decide) _ hc] at heq
    obtain ⟨ahead', rfl, hrest⟩ := cons_of_append_eq (outsideBetween htotal).ne_nil heq
    rw [total_cons] at htotal
    exact ih (outsideBetween (by omega)) hrest
  | closingInside hmark htotal =>
    rw [stream_inside, stream_blank (by decide) _ hc] at heq
    obtain ⟨ahead', rfl, hrest⟩ := cons_of_append_eq (closingInside hmark htotal).ne_nil heq
    rw [total_cons] at htotal
    exact ih (outsideBetween (by omega)) hrest

lemma Ahead.letter_ne (h : Ahead q w q' w' ahead) (hc : isBlank c = false) :
    ahead ++ stream q w (.text c :: is) ≠ stream q' w' (.text c :: is) := by
  intro heq
  cases h with
  | insideWithin hmark htotal =>
    rw [stream_letter_within _ hc, stream_letter_within _ hc] at heq
    obtain ⟨ahead', rfl, hrest⟩ := concat_of_append_eq (insideWithin hmark htotal).ne_nil heq
    exact ih (insideWithin ((hmark.of_cons hc).append _) (heavy_concat hc ahead')) hrest
  | @insideBetween ahead b hb htotal =>
    -- The scan behind gives the beginning of a word first, and then the letter.
    have hdiffer : some b ≠ some c := by
      rw [ne_eq, Option.some.injEq]
      exact ne_of_isBlank hb hc
    rw [stream_letter_within _ hc, stream_letter _ _ hc] at heq
    obtain ⟨ahead', rfl, hrest⟩ := cons_of_concat_append_eq (by simp) heq
    obtain ⟨ahead'', rfl, hrest'⟩ := cons_of_concat_append_eq hdiffer hrest
    rw [List.append_cons] at hrest'
    exact ih (insideWithin ⟨some b, by simp, hb⟩ (heavy_concat hc _)) hrest'
  | insideClosing hlasting =>
    rw [stream_letter_within _ hc, stream_letter_within _ hc] at heq
    obtain ⟨ahead', rfl, hrest⟩ := concat_of_append_eq (insideClosing hlasting).ne_nil heq
    exact ih (insideWithin ((hlasting.marked.of_cons hc).append _) (heavy_concat hc ahead')) hrest
  | outsideWithin hlasting =>
    rw [stream_letter_within _ hc, stream_letter_within _ hc] at heq
    obtain ⟨ahead', rfl, hrest⟩ := concat_of_append_eq (outsideWithin hlasting).ne_nil heq
    exact ih (outsideWithin ((hlasting.marked.of_cons hc).lasting hc)) hrest
  | outsideBetween htotal =>
    rw [stream_letter _ _ hc, stream_letter_within _ hc] at heq
    obtain ⟨ahead', rfl, hrest⟩ := concat_of_append_eq (outsideBetween htotal).ne_nil heq
    have hmark : Marked (ahead' ++ [none]) := ⟨none, by simp, rfl⟩
    change ahead' ++ [none] ++ some c :: _ = _ at hrest
    rw [List.append_cons] at hrest
    exact ih (outsideWithin (hmark.lasting hc)) hrest
  | closingInside hmark htotal =>
    rw [stream_letter_within _ hc, stream_letter_within _ hc] at heq
    obtain ⟨ahead', rfl, hrest⟩ := concat_of_append_eq (closingInside hmark htotal).ne_nil heq
    exact ih (outsideWithin ((hmark.of_cons hc).lasting hc)) hrest

lemma Ahead.quote_ne (h : Ahead q w q' w' ahead) :
    ahead ++ stream q w (.quote :: is) ≠ stream q' w' (.quote :: is) := by
  have hquote : isBlank (quote : α) = false := isBlank_quote
  intro heq
  cases h with
  | insideWithin hmark htotal => exact ih (closingInside hmark (by omega)) heq
  | @insideBetween ahead b hb htotal =>
    obtain ⟨ahead', rfl, hrest⟩ := cons_of_concat_append_eq (by simp) heq
    rw [total_cons, weight_none] at htotal
    apply ih (closingInside ⟨some b, by simp, hb⟩ _) hrest
    rw [total_append]
    omega
  | insideClosing hlasting =>
    obtain ⟨ahead', rfl, hrest⟩ := cons_of_append_eq (insideClosing hlasting).ne_nil heq
    exact ih (closingInside (hlasting.marked.of_cons hquote) (hlasting.of_cons hquote)) hrest
  | outsideWithin hlasting => exact ih (insideClosing hlasting) heq
  | outsideBetween htotal =>
    change ahead ++ none :: _ = _ at heq
    rw [List.append_cons] at heq
    exact ih (insideClosing (lasting_none htotal)) heq
  | closingInside hmark htotal =>
    change ahead ++ some quote :: _ = _ at heq
    rw [List.append_cons] at heq
    exact ih (insideClosing (hmark.lasting hquote)) heq

end Steps

theorem Ahead.stream_ne {q q' : Quoting} {w w' : Bool} (h : Ahead q w q' w' ahead)
    (is : List (Item α)) :
    ahead ++ stream q w is ≠ stream q' w' is := by
  induction is generalizing q q' w w' ahead with
  | nil =>
    rw [stream, stream, List.append_nil]
    exact h.ne_nil
  | cons i is ih =>
    cases i with
    | text c =>
      cases hc : isBlank c with
      | true => exact h.blank_ne ih hc
      | false => exact h.letter_ne ih hc
    | quote => exact h.quote_ne ih

end Catter.Library.CommandLine
