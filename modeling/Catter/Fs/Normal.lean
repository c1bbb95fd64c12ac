import Catter.Fs.Path

/-! `lexically_normal` keeps the node that a path leads to, and its result says no more
about the path than that. -/

namespace Catter.Fs.Path

open Text Library.Directions

variable {p q : Path} {n : Str} {ns : List Str} {node : List Str}

/-! What stands after the loop of `lexically_normal` is the reduced way. -/

def standing (rooted : Bool) (way : Way Str) : List Str :=
  (if rooted then [] else List.replicate way.ups dotDot) ++ way.downs

variable {rooted : Bool} {way : Way Str}

lemma moveOf_proper (hn : IsProper n) : moveOf n = .down n := by
  rw [moveOf, if_neg, if_neg hn.2.2]
  exact fun h => h.elim hn.1.1 hn.2.1

lemma map_moveOf_proper (hns : ∀ n ∈ ns, IsProper n) : ns.map moveOf = ns.map .down :=
  List.map_congr_left fun n hn => moveOf_proper (hns n hn)

lemma moveOf_dotDot : moveOf dotDot = .up := rfl

lemma isProper_extend {e : Str} (he : e = [] ∨ IsName e) (hway : ∀ n ∈ way.downs, IsProper n) :
    ∀ n ∈ (way.extend (moveOf e)).downs, IsProper n := by
  rw [moveOf]
  split_ifs with hstay hup
  · exact hway
  · intro n hn
    rw [Way.extend] at hn
    split_ifs at hn with hdowns
    · exact absurd hn List.not_mem_nil
    · exact hway n (List.mem_of_mem_dropLast hn)
  · intro n hn
    rw [Way.extend, List.mem_append, List.mem_singleton] at hn
    rcases hn with hn | rfl
    · exact hway n hn
    · rw [not_or] at hstay
      exact ⟨he.resolve_left hstay.1, hstay.2, hup⟩

lemma add_dotDot (hway : ∀ n ∈ way.downs, IsProper n) (trailed : Bool) :
    (Kept.add rooted ⟨standing rooted way, trailed⟩ dotDot).names =
      standing rooted (way.extend .up) := by
  have hup : ¬ (dotDot = [] ∨ dotDot = dot) := by decide
  rw [Kept.add, if_neg hup, if_pos rfl]
  cases hlast : way.downs.getLast? with
  | none =>
    have hdowns := List.getLast?_eq_none_iff.mp hlast
    cases rooted with
    | true => simp [standing, hdowns, Way.extend]
    | false =>
      have hshape : standing false way = List.replicate way.ups dotDot := by simp [standing, hdowns]
      cases hups : way.ups with
      | zero => simp [standing, hdowns, hups, Way.extend]
      | succ k =>
        rw [hshape, List.getLast?_replicate, hups, if_neg (Nat.succ_ne_zero k)]
        simp [standing, hdowns, hups, Way.extend, List.replicate_succ']
  | some last =>
    have hmem := List.mem_of_getLast? hlast
    have hne := List.ne_nil_of_mem hmem
    have hwhole : (standing rooted way).getLast? = some last := by
      rw [standing, List.getLast?_append_of_ne_nil _ hne, hlast]
    simp only [hwhole, if_neg (hway last hmem).2.2]
    simp [standing, List.dropLast_append_of_ne_nil hne, Way.extend, hne]

lemma add_names (hway : ∀ n ∈ way.downs, IsProper n) (trailed : Bool) (e : Str) :
    (Kept.add rooted ⟨standing rooted way, trailed⟩ e).names =
      standing rooted (way.extend (moveOf e)) := by
  by_cases hstay : e = [] ∨ e = dot
  · rw [Kept.add, moveOf, if_pos hstay, if_pos hstay]
    rfl
  · by_cases hup : e = dotDot
    · subst hup
      exact add_dotDot hway trailed
    · rw [Kept.add, moveOf, if_neg hstay, if_neg hstay, if_neg hup, if_neg hup]
      simp [standing, Way.extend]

lemma isProper_foldl {es : List Str} (hes : ∀ e ∈ es, e = [] ∨ IsName e)
    (hway : ∀ n ∈ way.downs, IsProper n) :
    ∀ n ∈ ((es.map moveOf).foldl Way.extend way).downs, IsProper n := by
  induction es generalizing way with
  | nil => exact hway
  | cons e es ih =>
    rw [List.map_cons, List.foldl_cons]
    exact ih (fun e he => hes e (List.mem_cons_of_mem _ he))
      (isProper_extend (hes e List.mem_cons_self) hway)

lemma foldl_add_names {es : List Str} (hes : ∀ e ∈ es, e = [] ∨ IsName e)
    (hway : ∀ n ∈ way.downs, IsProper n)
    (trailed : Bool) : (es.foldl (Kept.add rooted) ⟨standing rooted way, trailed⟩).names =
      standing rooted ((es.map moveOf).foldl Way.extend way) := by
  induction es generalizing way trailed with
  | nil => rfl
  | cons e es ih =>
    have hstep : (Kept.add rooted ⟨standing rooted way, trailed⟩ e).names = _ :=
      add_names hway trailed e
    rw [List.foldl_cons, List.map_cons, List.foldl_cons,
      ← ih (fun e he => hes e (List.mem_cons_of_mem _ he))
        (isProper_extend (hes e List.mem_cons_self) hway) _, ← hstep]

lemma filter_relativeElements (p : Path) : p.relativeElements.filter (· ≠ []) = p.names := by
  have hnames : p.names.filter (· ≠ []) = p.names :=
    List.filter_eq_self.mpr fun n hn => by simpa using (isName_of_mem_names hn).1
  rw [relativeElements, List.filter_append, hnames]
  split_ifs <;> simp

lemma relativeElements_names (p : Path) : ∀ e ∈ p.relativeElements, e = [] ∨ IsName e := by
  intro e he
  rw [relativeElements, List.mem_append] at he
  rcases he with he | he
  · exact Or.inr (isName_of_mem_names he)
  · split_ifs at he
    · exact Or.inl (List.mem_singleton.mp he)
    · exact absurd he List.not_mem_nil

def wayOf (p : Path) : Way Str := reduce (p.names.map moveOf)

lemma go_wayOf (node : List Str) (p : Path) :
    (wayOf p).go node = follow node (p.names.map moveOf) := go_reduce _

lemma reduce_relativeElements (p : Path) : reduce (p.relativeElements.map moveOf) = wayOf p := by
  rw [relativeElements, List.map_append, reduce, List.foldl_append]
  split_ifs <;> rfl

lemma isProper_wayOf (p : Path) : ∀ n ∈ (wayOf p).downs, IsProper n := by
  rw [← reduce_relativeElements]
  exact isProper_foldl (relativeElements_names p) fun _ hn => absurd hn List.not_mem_nil

def kept (p : Path) : Kept := p.relativeElements.foldl (Kept.add p.isAbsolute) ⟨[], false⟩

lemma standing_start (rooted : Bool) : standing rooted .start = [] := by
  cases rooted <;> rfl

lemma kept_names (p : Path) : (kept p).names = standing p.isAbsolute (wayOf p) := by
  rw [kept, ← standing_start p.isAbsolute, ← reduce_relativeElements]
  exact foldl_add_names (relativeElements_names p) (fun _ hn => absurd hn List.not_mem_nil) false

lemma lexicallyNormal_eq (hp : p.names ≠ []) : lexicallyNormal p = (kept p).text p.isAbsolute := by
  rw [lexicallyNormal, if_neg hp, kept]

lemma isName_standing (hway : ∀ n ∈ way.downs, IsProper n) :
    ∀ n ∈ standing rooted way, IsName n := by
  intro n hn
  rw [standing, List.mem_append] at hn
  rcases hn with hn | hn
  · split_ifs at hn
    · exact absurd hn List.not_mem_nil
    · rw [List.eq_of_mem_replicate hn]
      exact ⟨by decide, by decide⟩
  · exact (hway n hn).1

lemma map_moveOf_standing (hway : ∀ n ∈ way.downs, IsProper n) :
    (standing rooted way).map moveOf = if rooted then way.downs.map .down else way.moves := by
  rw [standing, List.map_append, map_moveOf_proper hway]
  cases rooted with
  | true => rfl
  | false => simp [Way.moves, List.map_replicate, moveOf_dotDot]

/-! The text of what stands. -/

variable {k : Kept}

def Kept.separator (k : Kept) : Str :=
  if k.trailed ∧ k.names ≠ [] ∧ k.names.getLast? ≠ some dotDot then [slash] else []

lemma names_append_separator (p : Path) (k : Kept) : names (p ++ k.separator) = names p := by
  rw [Kept.separator]
  split_ifs
  · exact names_trail p
  · rw [List.append_nil]

lemma text_rooted (k : Kept) :
    k.text true = slash :: ([slash].intercalate k.names ++ k.separator) := rfl

lemma text_relative (k : Kept) :
    k.text false = if k.names = [] then dot else [slash].intercalate k.names ++ k.separator := rfl

lemma names_dot : names dot = [dot] := names_name ⟨by decide, by decide⟩

lemma names_text_rooted (hk : ∀ n ∈ k.names, IsName n) : names (k.text true) = k.names := by
  rw [text_rooted, names_slash, names_append_separator, names_intercalate hk]

lemma names_text_relative (hk : ∀ n ∈ k.names, IsName n) :
    names (k.text false) = if k.names = [] then [dot] else k.names := by
  rw [text_relative]
  split_ifs
  · exact names_dot
  · rw [names_append_separator, names_intercalate hk]

lemma isAbsolute_intercalate_append (hk : ∀ n ∈ ns, IsName n) (hns : ns ≠ []) (q : Str) :
    isAbsolute ([slash].intercalate ns ++ q) = false := by
  cases ns with
  | nil => exact absurd rfl hns
  | cons n ns =>
    obtain ⟨hne, hslash⟩ := hk n List.mem_cons_self
    cases n with
    | nil => exact absurd rfl hne
    | cons c n =>
      have hc : c ≠ slash := fun h => hslash (h ▸ List.mem_cons_self)
      cases ns <;> simp [List.intercalate, isAbsolute, hc]

lemma isAbsolute_text (hk : ∀ n ∈ k.names, IsName n) : isAbsolute (k.text rooted) = rooted := by
  cases rooted with
  | true => rfl
  | false =>
    rw [text_relative]
    split_ifs with hnone
    · rfl
    · exact isAbsolute_intercalate_append hk hnone _

lemma isName_kept (p : Path) : ∀ n ∈ (kept p).names, IsName n := by
  rw [kept_names]
  exact isName_standing (isProper_wayOf p)

lemma lexicallyNormal_blank (hp : p.names = []) : lexicallyNormal p = p := by
  rw [lexicallyNormal, if_pos hp]

lemma wayOf_blank (hp : p.names = []) : wayOf p = .start := by
  rw [wayOf, hp]
  rfl

lemma isAbsolute_lexicallyNormal (p : Path) : isAbsolute (lexicallyNormal p) = p.isAbsolute := by
  by_cases hp : p.names = []
  · rw [lexicallyNormal_blank hp]
  · rw [lexicallyNormal_eq hp]
    exact isAbsolute_text (isName_kept p)

lemma names_lexicallyNormal_rooted (hp : p.isAbsolute = true) :
    names (lexicallyNormal p) = (wayOf p).downs := by
  by_cases hnames : p.names = []
  · rw [lexicallyNormal_blank hnames, wayOf_blank hnames, hnames]
    rfl
  · rw [lexicallyNormal_eq hnames, hp, names_text_rooted (isName_kept p), kept_names, hp]
    rfl

lemma place_lexicallyNormal (node : List Str) (p : Path) :
    place node (lexicallyNormal p) = place node p := by
  by_cases hp : p.names = []
  · rw [lexicallyNormal_blank hp]
  cases hrooted : p.isAbsolute with
  | true =>
    have hnormal : (lexicallyNormal p).isAbsolute = true :=
      (isAbsolute_lexicallyNormal p).trans hrooted
    rw [place_absolute hnormal, place_absolute hrooted, names_lexicallyNormal_rooted hrooted,
      map_moveOf_proper (isProper_wayOf p), follow_downs, ← go_wayOf, go_root, List.nil_append]
  | false =>
    have hnormal : (lexicallyNormal p).isAbsolute = false :=
      (isAbsolute_lexicallyNormal p).trans hrooted
    have hstanding : follow node ((kept p).names.map moveOf) = (wayOf p).go node := by
      rw [kept_names, hrooted, map_moveOf_standing (isProper_wayOf p)]
      exact follow_moves (wayOf p)
    rw [place_relative hnormal, place_relative hrooted, ← go_wayOf node p, ← hstanding,
      lexicallyNormal_eq hp, hrooted,
      names_text_relative (isName_kept p)]
    split_ifs with hnone
    · rw [hnone]
      rfl
    · rfl

/-! The loop leaves a normal form as it is. -/

lemma foldl_add_dotDots (j : ℕ) :
    (List.replicate j dotDot).foldl (Kept.add false) ⟨[], false⟩ =
      ⟨List.replicate j dotDot, false⟩ := by
  induction j with
  | zero => rfl
  | succ j ih =>
    rw [List.replicate_succ', List.foldl_append, ih]
    cases j with
    | zero => rfl
    | succ j =>
      have hlast : (List.replicate (j + 1) dotDot).getLast? = some dotDot := by
        rw [List.getLast?_replicate, if_neg (Nat.succ_ne_zero j)]
      have hstep : Kept.add false ⟨List.replicate (j + 1) dotDot, false⟩ dotDot =
          ⟨List.replicate (j + 1) dotDot ++ [dotDot], false⟩ := by
        rw [Kept.add, if_neg (by decide), if_pos rfl]
        simp only [hlast, if_true]
      exact hstep

lemma foldl_add_proper {init : List Str} (hns : ∀ n ∈ ns, IsProper n) :
    ns.foldl (Kept.add rooted) ⟨init, false⟩ = ⟨init ++ ns, false⟩ := by
  induction ns generalizing init with
  | nil => simp
  | cons n ns ih =>
    obtain ⟨hname, hdot, hdotDot⟩ := hns n List.mem_cons_self
    have hstep : Kept.add rooted ⟨init, false⟩ n = ⟨init ++ [n], false⟩ := by
      rw [Kept.add, if_neg (not_or.mpr ⟨hname.1, hdot⟩), if_neg hdotDot]
    rw [List.foldl_cons, hstep, ih fun n hn => hns n (List.mem_cons_of_mem _ hn)]
    simp

lemma foldl_add_standing (hway : ∀ n ∈ way.downs, IsProper n) :
    (standing rooted way).foldl (Kept.add rooted) ⟨[], false⟩ = ⟨standing rooted way, false⟩ := by
  rw [standing, List.foldl_append]
  cases rooted with
  | true => exact foldl_add_proper hway
  | false =>
    rw [if_neg Bool.false_ne_true, foldl_add_dotDots]
    exact foldl_add_proper hway

lemma separator_cases (k : Kept) : k.separator = [] ∨
    k.separator = [slash] ∧ k.trailed = true ∧ k.names ≠ [] ∧ k.names.getLast? ≠ some dotDot := by
  rw [Kept.separator]
  split_ifs with h
  · exact Or.inr ⟨rfl, h⟩
  · exact Or.inl rfl

lemma intercalate_concat (hns : ns ≠ []) (f : Str) :
    [slash].intercalate (ns ++ [f]) = [slash].intercalate ns ++ slash :: f := by
  induction ns with
  | nil => exact absurd rfl hns
  | cons n ns ih =>
    by_cases hrest : ns = []
    · subst hrest
      simp [List.intercalate]
    · rw [List.cons_append, List.intercalate_cons_of_ne_nil (by simp), ih hrest,
        List.intercalate_cons_of_ne_nil hrest]
      simp

lemma isTrailed_intercalate (hk : ∀ n ∈ ns, IsName n) (hns : ns ≠ []) (d : Path) :
    isTrailed (d ++ [slash].intercalate ns) = false := by
  obtain ⟨init, f, rfl⟩ := (List.eq_nil_or_concat' ns).resolve_left hns
  have hf := hk f (by simp)
  by_cases hinit : init = []
  · subst hinit
    simpa [List.intercalate] using isTrailed_append_name d hf
  · have hsplit : d ++ [slash].intercalate (init ++ [f]) =
        (d ++ [slash].intercalate init ++ [slash]) ++ f := by
      simp [intercalate_concat hinit]
    rw [hsplit]
    exact isTrailed_append_name _ hf

lemma relativeElements_stem (hk : ∀ n ∈ ns, IsName n) (hns : ns ≠ []) {root : Path}
    (hroot : root = [] ∨ root = [slash])
    (k : Kept) : relativeElements (root ++ [slash].intercalate ns ++ k.separator) =
      ns ++ if k.separator = [] then [] else [[]] := by
  have hopen : Open root := hroot.imp id fun h => ⟨[], h⟩
  have hroot' : names root = [] := by rcases hroot with rfl | rfl <;> rfl
  have hnames : names (root ++ [slash].intercalate ns) = ns := by
    rw [names_open_append hopen, hroot', names_intercalate hk, List.nil_append]
  rw [relativeElements, names_append_separator, hnames]
  rcases separator_cases k with hsep | ⟨hsep, -⟩
  · rw [hsep, List.append_nil, isTrailed_intercalate hk hns]
    simp
  · rw [hsep, isTrailed_trail, hnames]
    simp [hns]

lemma text_congr {k' : Kept} (hnames : k.names = k'.names) (hsep : k.separator = k'.separator) :
    k.text rooted = k'.text rooted := by
  cases rooted with
  | true => rw [text_rooted, text_rooted, hnames, hsep]
  | false => rw [text_relative, text_relative, hnames, hsep]

lemma text_lexicallyNormal (hway : ∀ n ∈ way.downs, IsProper n) {k : Kept}
    (hk : k.names = standing rooted way) :
    lexicallyNormal (k.text rooted) = k.text rooted := by
  have hnames : ∀ n ∈ k.names, IsName n := by
    rw [hk]
    exact isName_standing hway
  by_cases hne : k.names = []
  · cases rooted with
    | true =>
      have htext : k.text true = [slash] := by simp [text_rooted, hne, Kept.separator]
      rw [htext]
      rfl
    | false =>
      rw [text_relative, if_pos hne]
      rfl
  · have hshape : ∃ root, (root = [] ∨ root = [slash]) ∧
        k.text rooted = root ++ [slash].intercalate k.names ++ k.separator := by
      cases rooted with
      | true => exact ⟨[slash], Or.inr rfl, rfl⟩
      | false => exact ⟨[], Or.inl rfl, by rw [text_relative, if_neg hne]; rfl⟩
    obtain ⟨root, hroot, htext⟩ := hshape
    have helements : relativeElements (k.text rooted) = standing rooted way ++ if k.separator =
        [] then [] else [[]] := by
      rw [htext, relativeElements_stem hnames hne hroot, hk]
    have htextne : names (k.text rooted) ≠ [] := by
      cases rooted with
      | true => rwa [names_text_rooted hnames]
      | false => rwa [names_text_relative hnames, if_neg hne]
    have hkept : (kept (k.text rooted)).text rooted = k.text rooted := by
      rw [kept, isAbsolute_text hnames, helements, List.foldl_append, foldl_add_standing hway]
      rcases separator_cases k with hsep | ⟨hsep, -, -, hlast⟩
      · rw [if_pos hsep]
        have hnone : Kept.separator ⟨standing rooted way, false⟩ = [] := by simp [Kept.separator]
        exact text_congr hk.symm (hnone.trans hsep.symm)
      · have hreads : [[]].foldl (Kept.add rooted) ⟨standing rooted way, false⟩ =
          ⟨standing rooted way, true⟩ := rfl
        rw [if_neg (by simp [hsep]), hreads]
        apply text_congr hk.symm
        rw [hk] at hne hlast
        rw [hsep, Kept.separator, if_pos ⟨rfl, hne, hlast⟩]
    rw [lexicallyNormal_eq htextne, isAbsolute_text hnames, hkept]

lemma lexicallyNormal_idempotent (p : Path) :
    lexicallyNormal (lexicallyNormal p) = lexicallyNormal p := by
  by_cases hp : p.names = []
  · rw [lexicallyNormal_blank hp, lexicallyNormal_blank hp]
  · rw [lexicallyNormal_eq hp]
    exact text_lexicallyNormal (isProper_wayOf p) (kept_names p)

lemma exists_trail (hp : p ≠ []) : ∃ d, append p [] = d ++ [slash] := by
  have hrel : isAbsolute ([] : Path) = false := rfl
  rw [append, hrel, if_neg Bool.false_ne_true]
  split_ifs with hfile
  · rw [List.append_nil]
    exact (filename_eq_nil.mp hfile).resolve_left hp
  · exact ⟨p, rfl⟩

lemma lexicallyNormal_directory (hp : p.IsPlain) :
    lexicallyNormal (append p []) = Kept.text p.isAbsolute
      ⟨standing p.isAbsolute (wayOf p), true⟩ := by
  by_cases hblank : p.names = []
  · obtain rfl := hp.2 hblank
    rw [wayOf_blank hblank, standing_start]
    rfl
  obtain ⟨d, hd⟩ := exists_trail hp.1
  have habsolute : isAbsolute (append p []) = p.isAbsolute := isAbsolute_append rfl
  have hnames : names (append p []) = names p := (names_append rfl).trans (List.append_nil _)
  have hway : wayOf (append p []) = wayOf p := by rw [wayOf, hnames, wayOf]
  have hstands : (kept (append p [])).names = standing p.isAbsolute (wayOf p) := by
    rw [kept_names, habsolute, hway]
  rw [lexicallyNormal_eq (by rwa [hnames]), habsolute]
  apply text_congr hstands
  have hslash : isTrailed (append p []) = true := by
    rw [hd, isTrailed_trail, ← names_trail, ← hd, hnames]
    simpa using hblank
  have htrailed : (kept (append p [])).trailed = true := by
    rw [kept, relativeElements, hslash, if_pos rfl, List.foldl_append]
    rfl
  rw [Kept.separator, Kept.separator, hstands, htrailed]

lemma place_eq_of_normal (h : lexicallyNormal (append p []) = lexicallyNormal (append q []))
    (node : List Str) :
    place node p = place node q := by
  have hsame : ∀ r : Path, place node (lexicallyNormal (append r [])) = place node r := by
    intro r
    rw [place_lexicallyNormal, place_append]
    rfl
  rw [← hsame p, ← hsame q, h]

/-- As directories, two paths of one kind have one normal form exactly where they lead to one node
from everywhere. -/
lemma normal_eq_iff (hp : p.IsPlain) (hq : q.IsPlain) (hkind : p.isAbsolute = q.isAbsolute) :
    lexicallyNormal (append p []) = lexicallyNormal (append q []) ↔
      ∀ node, place node p = place node q := by
  refine ⟨fun h node => place_eq_of_normal h node, ?_⟩
  intro h
  rw [lexicallyNormal_directory hp, lexicallyNormal_directory hq, ← hkind]
  cases hrooted : p.isAbsolute with
  | true =>
    have hdowns : (wayOf p).downs = (wayOf q).downs := by
      have hplace := h []
      rwa [place_absolute hrooted, place_absolute (hkind ▸ hrooted), ← go_wayOf, ← go_wayOf,
        go_root, go_root] at hplace
    rw [standing, standing, hdowns]
    rfl
  | false =>
    have hway : wayOf p = wayOf q := by
      apply go_injective
      intro node
      have hplace := h node
      rwa [place_relative hrooted, place_relative (hkind ▸ hrooted), ← go_wayOf, ← go_wayOf]
        at hplace
    rw [hway]

end Catter.Fs.Path
