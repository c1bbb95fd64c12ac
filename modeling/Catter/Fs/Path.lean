import Mathlib.Data.List.DropRight
import Catter.Library.Directions
import Catter.Text

/-! `std::filesystem::path` of POSIX, without root names: the text of a path, what the
member functions make of it, and the node of the tree that it leads to. -/

namespace Catter.Fs

open Text Library.Directions

abbrev Path := Str

def slash : UInt8 := 47

def dot : Str := [46]

def dotDot : Str := [46, 46]

namespace Path

def isAbsolute (p : Path) : Bool := p.head? = some slash

/-- The filenames, without the empty one that stands for a separator at the end. -/
def names (p : Path) : List Str := (p.splitOn slash).filter (· ≠ [])

def isTrailed (p : Path) : Bool := p.names ≠ [] ∧ p.getLast? = some slash

def relativeElements (p : Path) : List Str := p.names ++ if p.isTrailed then [[]] else []

-- A path of nothing but separators is one element.
def elements (p : Path) : List Str :=
  (if !p.isAbsolute then [] else if p.names = [] then [p] else [[slash]]) ++ p.relativeElements

def filename (p : Path) : Str := p.relativeElements.getLast?.getD []

/-- `operator/=` -/
def append (p q : Path) : Path :=
  if q.isAbsolute then q else if p.filename = [] then p ++ q else p ++ slash :: q

/-- The longest text that p begins with and that has one element less; of the separators at the
front one stays. -/
def parentPath (p : Path) : Path :=
  if p.names = [] then p
  else
    let directory : Path := if p.isTrailed then p else p.rdropWhile (· ≠ slash)
    if directory.names = [] then directory.take 1 else directory.rdropWhile (· = slash)

/-- The filenames that stand, and whether a separator follows them. -/
structure Kept where
  names : List Str
  trailed : Bool

def Kept.add (rooted : Bool) (kept : Kept) (element : Str) : Kept :=
  if element = [] ∨ element = dot then ⟨kept.names, true⟩
  else if element = dotDot then
    match kept.names.getLast? with
    | none => if rooted then kept else ⟨[dotDot], false⟩
    | some last => if last = dotDot then ⟨kept.names ++ [dotDot], false⟩
        else ⟨kept.names.dropLast, true⟩
  else ⟨kept.names ++ [element], false⟩

def Kept.text (rooted : Bool) (kept : Kept) : Path :=
  let separator := if kept.trailed ∧ kept.names ≠ [] ∧ kept.names.getLast? ≠ some dotDot then
    [slash] else []
  if rooted then slash :: ([slash].intercalate kept.names ++ separator)
  else if kept.names = [] then dot
  else [slash].intercalate kept.names ++ separator

def lexicallyNormal (p : Path) : Path :=
  if p.names = [] then p
    else (p.relativeElements.foldl (Kept.add p.isAbsolute) ⟨[], false⟩).text p.isAbsolute

def mismatch : List Str → List Str → List Str × List Str
  | x :: xs, y :: ys => if x = y then mismatch xs ys else (x :: xs, y :: ys)
  | xs, ys => (xs, ys)

def lexicallyRelative (p base : Path) : Path :=
  if p.isAbsolute ≠ base.isAbsolute then []
  else
    let (a, b) := mismatch p.elements base.elements
    if a = [] ∧ b = [] then dot
    else
      let n : ℤ := b.countP (fun e => e ≠ [] ∧ e ≠ dot ∧ e ≠ dotDot) - b.countP (· = dotDot)
      if n < 0 then []
      else if n = 0 ∧ (a = [] ∨ a.head? = some []) then dot
      else (List.replicate n.toNat dotDot ++ a).foldl append []

/-! Where a path leads to, if no node of the tree is a link. -/

def moveOf (element : Str) : Move Str :=
  if element = [] ∨ element = dot then .stay else if element = dotDot then .up else .down element

def place (node : List Str) (p : Path) : List Str :=
  follow (if p.isAbsolute then [] else node) (p.names.map moveOf)

/-! The names in a text. -/

def IsName (n : Str) : Prop := n ≠ [] ∧ slash ∉ n

instance : DecidablePred IsName := fun n => inferInstanceAs (Decidable (n ≠ [] ∧ slash ∉ n))

def IsProper (n : Str) : Prop := IsName n ∧ n ≠ dot ∧ n ≠ dotDot

/-- Some text, and not of several separators alone, which stay as they are. -/
def IsPlain (p : Path) : Prop := p ≠ [] ∧ (p.names = [] → p = [slash])

instance : DecidablePred IsPlain := fun p =>
    inferInstanceAs (Decidable (p ≠ [] ∧ (p.names = [] → p = [slash])))

def Open (p : Path) : Prop := p = [] ∨ ∃ d, p = d ++ [slash]

variable {p q d : Path} {f n : Str} {ns : List Str} {node : List Str}

lemma isName_of_mem_names (h : n ∈ p.names) : IsName n := by
  rw [names, List.mem_filter, decide_eq_true_eq] at h
  exact ⟨h.2, not_mem_of_mem_splitOn p n h.1⟩

@[simp] lemma names_nil : names [] = [] := rfl

lemma names_append_slash (p q : Path) : names (p ++ slash :: q) = names p ++ names q := by
  rw [names, List.splitOn_append_cons_self, List.filter_append, names, names]

lemma names_slash (q : Path) : names (slash :: q) = names q := names_append_slash [] q

lemma names_trail (p : Path) : names (p ++ [slash]) = names p := by
  rw [names_append_slash, names_nil, List.append_nil]

lemma names_name (h : IsName n) : names n = [n] := by
  rw [names, List.splitOn_eq_singleton h.2]
  simp [h.1]

lemma names_open_append (hd : Open d) (q : Path) : names (d ++ q) = names d ++ names q := by
  rcases hd with rfl | ⟨d, rfl⟩
  · rfl
  · rw [List.append_assoc, List.singleton_append, names_append_slash, names_trail]

lemma names_intercalate (h : ∀ n ∈ ns, IsName n) : names ([slash].intercalate ns) = ns := by
  by_cases hns : ns = []
  · subst hns
    rfl
  · rw [names, List.splitOn_intercalate slash (fun n hn => (h n hn).2) hns, List.filter_eq_self]
    exact fun n hn => by simpa using (h n hn).1

lemma open_directory (p : Path) : Open (p.rdropWhile (· ≠ slash)) := by
  by_cases hne : p.rdropWhile (· ≠ slash) = []
  · exact Or.inl hne
  · have hlast := List.rdropWhile_last_not (· ≠ slash) p hne
    have hslash : (p.rdropWhile (· ≠ slash)).getLast hne = slash := by simpa using hlast
    have hsplit := List.dropLast_append_getLast hne
    rw [hslash] at hsplit
    exact Or.inr ⟨_, hsplit.symm⟩

lemma exists_last (p : Path) : ∃ f, slash ∉ f ∧ p = p.rdropWhile (· ≠ slash) ++ f := by
  refine ⟨p.rtakeWhile (· ≠ slash), ?_, List.rdropWhile_append_rtakeWhile.symm⟩
  intro hmem
  simpa using List.mem_rtakeWhile_imp hmem

lemma getLast?_append_name (d : Path) (hf : IsName f) : (d ++ f).getLast? ≠ some slash := by
  rw [List.getLast?_append_of_ne_nil _ hf.1]
  exact fun hlast => hf.2 (List.mem_of_getLast? hlast)

lemma isTrailed_append_name (d : Path) (hf : IsName f) : isTrailed (d ++ f) = false := by
  rw [isTrailed, decide_eq_false_iff_not]
  exact fun h => getLast?_append_name d hf h.2

lemma isTrailed_trail (p : Path) : isTrailed (p ++ [slash]) = decide (p.names ≠ []) := by
  simp [isTrailed, names_trail]

lemma filename_append_name (hd : Open d) (hf : IsName f) : filename (d ++ f) = f := by
  rw [filename, relativeElements, isTrailed_append_name d hf, names_open_append hd, names_name hf]
  simp

lemma filename_open (hd : Open d) : filename d = [] := by
  rcases hd with rfl | ⟨d, rfl⟩
  · rfl
  · rw [filename, relativeElements, isTrailed_trail, names_trail]
    by_cases hnames : d.names = []
    · simp [hnames]
    · simp [hnames]

lemma open_or_name (p : Path) : Open p ∨ ∃ d f, Open d ∧ IsName f ∧ p = d ++ f := by
  obtain ⟨f, hf, hp⟩ := exists_last p
  have hd := open_directory p
  by_cases hne : f = []
  · rw [hne, List.append_nil] at hp
    rw [hp]
    exact Or.inl hd
  · exact Or.inr ⟨_, f, hd, ⟨hne, hf⟩, hp⟩

lemma filename_eq_nil : p.filename = [] ↔ Open p := by
  constructor
  · intro h
    rcases open_or_name p with hopen | ⟨d, f, hd, hf, rfl⟩
    · exact hopen
    · rw [filename_append_name hd hf] at h
      exact absurd h hf.1
  · exact filename_open

lemma isAbsolute_append_of_ne_nil (hp : p ≠ []) (q : Str) : isAbsolute (p ++ q) = p.isAbsolute := by
  cases p with
  | nil => exact absurd rfl hp
  | cons c p => rfl

/-! Joining: to go along the one path and then along the other. -/

lemma append_absolute (hq : q.isAbsolute = true) : append p q = q := by
  rw [append, if_pos hq]

lemma names_append (hq : q.isAbsolute = false) : names (append p q) = names p ++ names q := by
  rw [append, hq, if_neg Bool.false_ne_true]
  split_ifs with hfile
  · exact names_open_append (filename_eq_nil.mp hfile) q
  · exact names_append_slash p q

lemma isAbsolute_append (hq : q.isAbsolute = false) : isAbsolute (append p q) = p.isAbsolute := by
  rw [append, hq, if_neg Bool.false_ne_true]
  by_cases hp : p = []
  · subst hp
    exact hq
  · split_ifs
    · exact isAbsolute_append_of_ne_nil hp q
    · exact isAbsolute_append_of_ne_nil hp (slash :: q)

lemma place_absolute (hp : p.isAbsolute = true) (node : List Str) :
    place node p = follow [] (p.names.map moveOf) := by
  rw [place, if_pos hp]

lemma place_relative (hp : p.isAbsolute = false) (node : List Str) :
    place node p = follow node (p.names.map moveOf) := by
  rw [place, hp, if_neg Bool.false_ne_true]

lemma place_append (node : List Str) (p q : Path) :
    place node (append p q) = place (place node p) q := by
  cases hq : q.isAbsolute with
  | true => rw [append_absolute hq, place_absolute hq, place_absolute hq]
  | false =>
    rw [place_relative hq, place, isAbsolute_append hq, names_append hq, List.map_append,
      follow_append, place]

end Path

end Catter.Fs
