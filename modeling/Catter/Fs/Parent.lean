import Catter.Fs.Normal

/-! `parent_path` and `filename` take a path apart. -/

namespace Catter.Fs.Path

open Text Library.Directions

variable {p q d f : Path} {n : Str} {ns : List Str} {root : Path}

/-! The separators at the end of a directory. -/

lemma names_rdropWhile (p : Path) : names (p.rdropWhile (· = slash)) = names p := by
  induction p using List.reverseRecOn with
  | nil => rfl
  | append_singleton p c ih =>
    rw [List.rdropWhile_concat]
    split_ifs with hc
    · rw [ih, of_decide_eq_true hc, names_trail]
    · rfl

lemma rdropWhile_ne_nil (hp : names p ≠ []) : p.rdropWhile (· = slash) ≠ [] := by
  intro hnil
  rw [← names_rdropWhile, hnil] at hp
  exact hp rfl

lemma filename_rdropWhile_ne_nil (hp : names p ≠ []) :
    filename (p.rdropWhile (· = slash)) ≠ [] := by
  intro hfile
  rcases filename_eq_nil.mp hfile with hnil | ⟨d, hd⟩
  · exact rdropWhile_ne_nil hp hnil
  · have hlast := List.rdropWhile_last_not (· = slash) p (rdropWhile_ne_nil hp)
    simp [hd] at hlast

lemma isAbsolute_beginning (hpre : q <+: p) (hq : q ≠ []) : q.isAbsolute = p.isAbsolute := by
  obtain ⟨rest, rfl⟩ := hpre
  exact (isAbsolute_append_of_ne_nil hq rest).symm

lemma isAbsolute_rdropWhile (hp : names p ≠ []) :
    isAbsolute (p.rdropWhile (· = slash)) = p.isAbsolute := by
  have hbegins := List.rdropWhile_prefix (· = slash) p
  exact isAbsolute_beginning hbegins (rdropWhile_ne_nil hp)

lemma rdropWhile_append_name (hd : Open d) (hf : slash ∉ f) :
    (d ++ f).rdropWhile (· ≠ slash) = d := by
  induction f using List.reverseRecOn with
  | nil =>
    rw [List.append_nil]
    rcases hd with rfl | ⟨d, rfl⟩
    · rfl
    · exact List.rdropWhile_concat_neg _ _ _ (by simp)
  | append_singleton f c ih =>
    rw [List.mem_append, List.mem_singleton, not_or] at hf
    rw [← List.append_assoc,
      List.rdropWhile_concat_pos _ _ _ (by simpa using Ne.symm hf.2), ih hf.1]

lemma isAbsolute_name (hf : slash ∉ f) : f.isAbsolute = false := by
  rw [isAbsolute, decide_eq_false_iff_not]
  exact fun hhead => hf (List.mem_of_mem_head? hhead)

lemma append_directory (hp : names p ≠ []) (hq : q.isAbsolute = false) :
    append (p.rdropWhile (· = slash)) q = p.rdropWhile (· = slash) ++ slash :: q := by
  rw [append, hq, if_neg Bool.false_ne_true, if_neg (filename_rdropWhile_ne_nil hp)]

lemma parentPath_append_name (hd : Open d) (hf : IsName f) :
    parentPath (d ++ f) = if names d = [] then d.take 1 else d.rdropWhile (· = slash) := by
  have hnames : names (d ++ f) ≠ [] := by simp [names_open_append hd, names_name hf]
  rw [parentPath, if_neg hnames, isTrailed_append_name d hf]
  simp only [Bool.false_eq_true, if_false, rdropWhile_append_name hd hf.2]

lemma names_ne_nil (habsolute : p.isAbsolute = false) (hp : p ≠ []) : names p ≠ [] := by
  cases p with
  | nil => exact absurd rfl hp
  | cons c p =>
    have hc : c ≠ slash := by simpa [isAbsolute] using habsolute
    obtain ⟨w, ws, hsplit⟩ := List.exists_cons_of_ne_nil (List.splitOn_ne_nil slash p)
    have hnames : names (c :: p) = (c :: w) :: ws.filter (· ≠ []) := by
      rw [names, List.splitOn_cons_eq_if_modifyHead, if_neg (by simpa using hc), hsplit,
        List.modifyHead_cons]
      rfl
    simp [hnames]

lemma open_take (hd : Open d) (hnames : names d = []) : Open (d.take 1) ∧ names (d.take 1) = [] ∧
    ∀ q : Str, isAbsolute (d.take 1 ++ q) = isAbsolute (d ++ q) := by
  cases d with
  | nil => exact ⟨Or.inl rfl, rfl, fun _ => rfl⟩
  | cons c d =>
    have hc : c = slash := by
      by_contra hc
      have hrelative : isAbsolute (c :: d) = false := by simpa [isAbsolute] using hc
      exact names_ne_nil hrelative (List.cons_ne_nil c d) hnames
    subst hc
    exact ⟨Or.inr ⟨[], rfl⟩, rfl, fun _ => rfl⟩

lemma relativeElements_eq (hnames : names q = names p) (htrailed : q.isTrailed = p.isTrailed) :
    q.relativeElements = p.relativeElements := by
  rw [relativeElements, relativeElements, hnames, htrailed]

lemma split_elements (p : Path) : (append p.parentPath p.filename).isAbsolute = p.isAbsolute ∧
    (append p.parentPath p.filename).relativeElements = p.relativeElements := by
  rcases open_or_name p with hopen | ⟨d, f, hd, hf, rfl⟩
  · rw [filename_open hopen]
    by_cases hnames : names p = []
    · rw [parentPath, if_pos hnames, append, if_neg (by decide), if_pos (filename_open hopen),
        List.append_nil]
      exact ⟨rfl, rfl⟩
    · obtain ⟨d, hd⟩ := hopen.resolve_left fun hnil => hnames (by rw [hnil]; rfl)
      have htrailed : p.isTrailed = true := by
        rw [hd, isTrailed_trail]
        rw [hd, names_trail] at hnames
        simpa using hnames
      have hparent : parentPath p = p.rdropWhile (· = slash) := by
        simp only [parentPath, if_neg hnames, htrailed, if_true]
      rw [hparent, append_directory hnames rfl]
      have hsame : names (p.rdropWhile (· = slash) ++ [slash]) = names p :=
        (names_trail _).trans (names_rdropWhile p)
      refine ⟨(isAbsolute_append_of_ne_nil (rdropWhile_ne_nil hnames) _).trans
        (isAbsolute_rdropWhile hnames), ?_⟩
      apply relativeElements_eq hsame
      rw [isTrailed_trail, names_rdropWhile, htrailed]
      simpa using hnames
  · rw [filename_append_name hd hf, parentPath_append_name hd hf]
    split_ifs with hnames
    · obtain ⟨hopen, hnone, habsolute⟩ := open_take hd hnames
      rw [append, isAbsolute_name hf.2, if_neg Bool.false_ne_true, if_pos (filename_open hopen)]
      refine ⟨habsolute f, relativeElements_eq ?_ ?_⟩
      · rw [names_open_append hopen, names_open_append hd, hnone, hnames]
      · rw [isTrailed_append_name _ hf, isTrailed_append_name _ hf]
    · have hne := rdropWhile_ne_nil hnames
      have hdne : d ≠ [] := by
        rintro rfl
        exact hnames rfl
      rw [append_directory hnames (isAbsolute_name hf.2)]
      refine ⟨?_, relativeElements_eq ?_ ?_⟩
      · rw [isAbsolute_append_of_ne_nil hne, isAbsolute_append_of_ne_nil hdne,
          isAbsolute_rdropWhile hnames]
      · rw [names_append_slash, names_rdropWhile, names_open_append hd]
      · rw [← List.singleton_append, ← List.append_assoc, isTrailed_append_name _ hf,
          isTrailed_append_name _ hf]

lemma lexicallyNormal_congr (hnames : p.names ≠ []) (habsolute : q.isAbsolute = p.isAbsolute)
    (helements : q.relativeElements = p.relativeElements) :
    lexicallyNormal q = lexicallyNormal p := by
  have hfilter : q.names = p.names := by
    rw [← filter_relativeElements, helements, filter_relativeElements]
  rw [lexicallyNormal_eq hnames, lexicallyNormal_eq (hfilter ▸ hnames), kept, kept, habsolute,
    helements]

lemma lexicallyNormal_split (p : Path) :
    lexicallyNormal (append p.parentPath p.filename) = lexicallyNormal p := by
  by_cases hnames : names p = []
  · have hopen : Open p := by
      rcases open_or_name p with hopen | ⟨d, f, hd, hf, rfl⟩
      · exact hopen
      · simp [names_open_append hd, names_name hf] at hnames
    rw [filename_open hopen, parentPath, if_pos hnames, append, if_neg (by decide),
      if_pos (filename_open hopen),
      List.append_nil]
  · obtain ⟨habsolute, helements⟩ := split_elements p
    exact lexicallyNormal_congr hnames habsolute helements

/-! A path that is joined from names. -/

def joined (root : Path) (ns : List Str) : Path := root ++ [slash].intercalate ns

def IsRoot (root : Path) : Prop := root = [] ∨ root = [slash]

lemma open_root (hroot : IsRoot root) : Open root := hroot.imp id fun h => ⟨[], h⟩

lemma names_root (hroot : IsRoot root) : names root = [] := by
  rcases hroot with rfl | rfl <;> rfl

lemma joined_nil (root : Path) : joined root [] = root := List.append_nil root

lemma joined_concat (root : Path) (ns : List Str) (n : Str) :
    joined root (ns ++ [n]) = (if ns = [] then root else joined root ns ++ [slash]) ++ n := by
  split_ifs with hns
  · simp [joined, hns, List.intercalate]
  · simp [joined, intercalate_concat hns]

lemma names_joined (hroot : IsRoot root) (hns : ∀ n ∈ ns, IsName n) :
    names (joined root ns) = ns := by
  rw [joined, names_open_append (open_root hroot), names_root hroot, names_intercalate hns,
    List.nil_append]

lemma open_directory_joined (hroot : IsRoot root) (ns : List Str) :
    Open (if ns = [] then root else joined root ns ++ [slash]) := by
  split_ifs
  · exact open_root hroot
  · exact Or.inr ⟨_, rfl⟩

lemma filename_joined (hroot : IsRoot root) (hn : IsName n) :
    filename (joined root (ns ++ [n])) = n := by
  rw [joined_concat, filename_append_name (open_directory_joined hroot ns) hn]

lemma rdropWhile_joined (hns : ∀ n ∈ ns, IsName n) (hne : ns ≠ []) (root : Path) :
    (joined root ns ++ [slash]).rdropWhile (· = slash) = joined root ns := by
  obtain ⟨init, f, rfl⟩ := (List.eq_nil_or_concat' ns).resolve_left hne
  rw [List.rdropWhile_concat_pos _ _ _ (by simp), List.rdropWhile_eq_self_iff]
  intro hlast
  have hslash := getLast?_append_name (if init = [] then root else joined root init ++ [slash])
    (hns f (by simp))
  rw [← joined_concat, List.getLast?_eq_some_getLast hlast] at hslash
  simpa using hslash

lemma parentPath_joined (hroot : IsRoot root) (hns : ∀ m ∈ ns ++ [n], IsName m) :
    parentPath (joined root (ns ++ [n])) = joined root ns := by
  have hinit : ∀ m ∈ ns, IsName m := fun m hm => hns m (List.mem_append_left _ hm)
  rw [joined_concat, parentPath_append_name (open_directory_joined hroot ns) (hns n (by simp))]
  by_cases hne : ns = []
  · subst hne
    rw [if_pos rfl, if_pos (names_root hroot), joined_nil]
    rcases hroot with rfl | rfl <;> rfl
  · rw [if_neg hne, names_trail, names_joined hroot hinit, if_neg hne, rdropWhile_joined hinit hne]

lemma parentPath_root (hroot : IsRoot root) : parentPath root = root := by
  rw [parentPath, if_pos (names_root hroot)]

lemma append_joined (hroot : IsRoot root) (hns : ∀ m ∈ ns ++ [n], IsName m) :
    append (joined root ns) n = joined root (ns ++ [n]) := by
  have hn := hns n (by simp)
  rw [append, isAbsolute_name hn.2, if_neg Bool.false_ne_true, joined_concat]
  rcases List.eq_nil_or_concat' ns with rfl | ⟨init, f, rfl⟩
  · rw [joined_nil, if_pos (filename_open (open_root hroot)), if_pos rfl]
  · have hf := hns f (by simp)
    rw [filename_joined hroot hf, if_neg hf.1, if_neg (by simp), List.append_assoc,
      List.singleton_append]

lemma foldl_append_joined (hroot : IsRoot root) (hns : ∀ n ∈ ns, IsName n) :
    ns.foldl append root = joined root ns := by
  induction ns using List.reverseRecOn with
  | nil => exact (joined_nil root).symm
  | append_singleton ns n ih =>
    rw [List.foldl_append, ih fun m hm => hns m (List.mem_append_left _ hm)]
    exact append_joined hroot hns

lemma parentPath_iterate (hroot : IsRoot root) (hns : ∀ n ∈ ns, IsName n) (k : ℕ) :
    parentPath^[k] (joined root ns) = joined root (ns.take (ns.length - k)) := by
  induction k generalizing ns with
  | zero => simp
  | succ k ih =>
    rw [Function.iterate_succ_apply]
    rcases List.eq_nil_or_concat' ns with rfl | ⟨init, f, rfl⟩
    · have hnone : ∀ n ∈ ([] : List Str), IsName n := fun _ hn => absurd hn List.not_mem_nil
      have hstays := ih hnone
      rw [joined_nil] at hstays
      simpa [joined_nil, parentPath_root hroot] using hstays
    · rw [parentPath_joined hroot hns, ih fun m hm => hns m (List.mem_append_left _ hm)]
      congr 1
      rw [List.length_append, List.length_singleton, Nat.add_sub_add_right,
        List.take_append_of_le_length (by omega)]

end Catter.Fs.Path
