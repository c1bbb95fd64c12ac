import Catter.Fs.Parent

/-! The functions of the C API, and so of the `fs` module, that work on paths. -/

namespace Catter.Fs

open Text Library.Directions Catter.Fs.Path

/-- The base of a relative path is the directory of the runtime configuration. -/
def absoluteOf (pwd : Path) (jsPath : Str) : Path :=
  if isAbsolute jsPath then jsPath else lexicallyNormal (append pwd jsPath)

def fsPathJoinAll : List Str → Str
  | [] => []
  | part :: parts => parts.foldl append part

def fsPathAncestorN (path : Str) (n : UInt32) : Str := parentPath^[n.toNat] path

def fsPathFilename (path : Str) : Str := filename path

def fsPathAbsolute (pwd : Path) (path : Str) : Str := absoluteOf pwd path

def fsPathLexicalNormal (path : Str) : Str := lexicallyNormal path

-- `fs::relative` asks the file system only for the canonical forms.
def fsPathRelativeTo (weaklyCanonical : Path → Path) (pwd : Path) (base path : Str) : Str :=
  lexicallyRelative (weaklyCanonical (absoluteOf pwd path)) (weaklyCanonical (absoluteOf pwd base))

variable {pwd p q base : Path} {node : List Str}

lemma place_foldl_append (node : List Str) (p : Path) (parts : List Str) :
    place node (parts.foldl append p) = parts.foldl place (place node p) := by
  induction parts generalizing p with
  | nil => rfl
  | cons part parts ih => rw [List.foldl_cons, ih, place_append, List.foldl_cons]

lemma place_fsPathJoinAll (node : List Str) (parts : List Str) :
    place node (fsPathJoinAll parts) = parts.foldl place node := by
  cases parts with
  | nil => rfl
  | cons part parts => exact place_foldl_append node part parts

lemma absoluteOf_absolute (hp : p.isAbsolute = true) : absoluteOf pwd p = p := by
  rw [absoluteOf, if_pos hp]

lemma absoluteOf_relative (hp : p.isAbsolute = false) :
    absoluteOf pwd p = lexicallyNormal (append pwd p) := by
  rw [absoluteOf, hp, if_neg Bool.false_ne_true]

lemma isAbsolute_absoluteOf (hpwd : pwd.isAbsolute = true) (jsPath : Str) :
    isAbsolute (absoluteOf pwd jsPath) = true := by
  cases hkind : isAbsolute jsPath with
  | true => rwa [absoluteOf_absolute hkind]
  | false => rw [absoluteOf_relative hkind, isAbsolute_lexicallyNormal,
      isAbsolute_append hkind, hpwd]

lemma place_absoluteOf (hpwd : pwd.isAbsolute = true) (node : List Str) (jsPath : Str) :
    place node (absoluteOf pwd jsPath) = place (place [] pwd) jsPath := by
  cases hkind : isAbsolute jsPath with
  | true => rw [absoluteOf_absolute hkind, place_absolute hkind, place_absolute hkind]
  | false =>
    rw [absoluteOf_relative hkind, place_lexicallyNormal, place_append, place_absolute hpwd,
      place_absolute hpwd]

lemma isProper_lexicallyNormal (hp : p.isAbsolute = true) :
    ∀ n ∈ names (lexicallyNormal p), IsProper n := by
  rw [names_lexicallyNormal_rooted hp]
  exact isProper_wayOf p

/-- What the functions of the file system are given for a path of a script is absolute, leads where
the path leads from the directory of the configuration, and stands for itself; the directions of a
relative path are all followed, also when the path has been joined from parts that are relative or
absolute. -/
theorem absolute_names_place (hpwd : pwd.isAbsolute = true) :
    (∀ jsPath, isAbsolute (absoluteOf pwd jsPath) = true ∧
      absoluteOf pwd (absoluteOf pwd jsPath) = absoluteOf pwd jsPath ∧
      (isAbsolute jsPath = false → ∀ n ∈ names (absoluteOf pwd jsPath), n ≠ dot ∧ n ≠ dotDot)) ∧
    ∀ (parts : List Str) (node : List Str),
      place node (fsPathAbsolute pwd (fsPathJoinAll parts)) = parts.foldl place (place [] pwd) := by
  constructor
  · intro jsPath
    have habsolute := isAbsolute_absoluteOf hpwd jsPath
    refine ⟨habsolute, absoluteOf_absolute habsolute, ?_⟩
    intro hkind n hn
    rw [absoluteOf_relative hkind] at hn
    have hjoined : (append pwd jsPath).isAbsolute = true := (isAbsolute_append hkind).trans hpwd
    exact (isProper_lexicallyNormal hjoined n hn).2
  · intro parts node
    rw [fsPathAbsolute, place_absoluteOf hpwd, place_fsPathJoinAll]

theorem absolute_names_place_joined :
    place [] (fsPathAbsolute (lit "/w") (fsPathJoinAll [lit "..", lit "res", lit "x/../b"])) =
      [lit "res", lit "b"] := by
  have hpwd : isAbsolute (lit "/w") = true := by decide
  rw [(absolute_names_place hpwd).2]
  decide

/-- `lexicalNormal` keeps where a path leads from everywhere, leaves its own results alone, and
tells two paths apart, taken as directories, exactly where they lead to different nodes from some
start; but for separators alone. -/
theorem lexical_normal_decides :
    (∀ path node, place node (fsPathLexicalNormal path) = place node path) ∧
    (∀ path, fsPathLexicalNormal (fsPathLexicalNormal path) = fsPathLexicalNormal path) ∧
    ∀ path path' : Str, IsPlain path → IsPlain path' → isAbsolute path = isAbsolute path' →
      (fsPathLexicalNormal (fsPathJoinAll [path, []]) =
        fsPathLexicalNormal (fsPathJoinAll [path', []]) ↔
        ∀ node, place node path = place node path') :=
  ⟨fun path node => place_lexicallyNormal node path, lexicallyNormal_idempotent,
    fun _ _ hpath hpath' hkind => normal_eq_iff hpath hpath' hkind⟩

theorem lexical_normal_decides_dots : ∀ node, place node (lit "a/b/../c/./d") =
    place node (lit "a/c/d") :=
  (lexical_normal_decides.2.2 (lit "a/b/../c/./d") (lit "a/c/d") (by decide) (by decide) rfl).mp
    (by decide)

/-- `toAncestor` takes the last names off a path that was joined from names, down to its root and no
further, and `filename` is the last of them; a path that is split into its parent and its filename
can be joined again. -/
theorem ancestor_of_joined :
    (∀ (root : Path) (ns : List Str) (n : UInt32), IsRoot root → (∀ name ∈ ns, IsName name) →
      fsPathAncestorN (fsPathJoinAll (root :: ns)) n =
        fsPathJoinAll (root :: ns.take (ns.length - n.toNat)) ∧
      fsPathFilename (fsPathJoinAll (root :: ns)) = ns.getLast?.getD []) ∧
    ∀ path, fsPathLexicalNormal (fsPathJoinAll [fsPathAncestorN path 1, fsPathFilename path]) =
      fsPathLexicalNormal path := by
  constructor
  · intro root ns n hroot hns
    have hjoin : ∀ ms : List Str, (∀ name ∈ ms, IsName name) →
      fsPathJoinAll (root :: ms) = joined root ms :=
      fun ms hms => foldl_append_joined hroot hms
    refine ⟨?_, ?_⟩
    · rw [hjoin ns hns, hjoin _ fun name hname => hns name (List.mem_of_mem_take hname),
        fsPathAncestorN,
        parentPath_iterate hroot hns]
    · rw [hjoin ns hns, fsPathFilename]
      rcases List.eq_nil_or_concat' ns with rfl | ⟨init, f, rfl⟩
      · rw [joined_nil, filename_open (open_root hroot)]
        rfl
      · rw [filename_joined hroot (hns f (by simp))]
        simp
  · intro path
    exact lexicallyNormal_split path

theorem ancestor_of_joined_grandparent :
    fsPathAncestorN (fsPathJoinAll [lit "/", lit "home", lit "user", lit "docs"]) 2 =
      lit "/home" := by
  have hroot : IsRoot (lit "/") := Or.inr rfl
  rw [(ancestor_of_joined.1 (lit "/") [lit "home", lit "user", lit "docs"] 2 hroot (by decide)).1]
  decide

/-! From a directory to a node, up as far as they differ. -/

lemma mismatch_append (xs ys : List Str) :
    ∃ common, xs = common ++ (mismatch xs ys).1 ∧ ys = common ++ (mismatch xs ys).2 := by
  induction xs generalizing ys with
  | nil => exact ⟨[], by simp [mismatch], by simp [mismatch]⟩
  | cons x xs ih =>
    cases ys with
    | nil => exact ⟨[], by simp [mismatch], by simp [mismatch]⟩
    | cons y ys =>
      rw [mismatch]
      split_ifs with hxy
      · obtain ⟨common, hxs, hys⟩ := ih ys
        exact ⟨x :: common, congrArg (x :: ·) hxs, by rw [← hxy]; exact congrArg (x :: ·) hys⟩
      · exact ⟨[], rfl, rfl⟩

lemma follow_filter (node : List Str) (es : List Str) :
    follow node (es.map moveOf) = follow node ((es.filter (· ≠ [])).map moveOf) := by
  induction es generalizing node with
  | nil => rfl
  | cons e es ih =>
    by_cases he : e = []
    · subst he
      rw [List.filter_cons_of_neg (by simp)]
      exact ih node
    · rw [List.filter_cons_of_pos (by simpa using he)]
      exact ih _

lemma place_element {e : Str} (he : e = [] ∨ IsName e) (node : List Str) :
    place node e = (moveOf e).go node := by
  rcases he with rfl | he
  · rfl
  · rw [place_relative (isAbsolute_name he.2), names_name he]
    rfl

lemma foldl_place {es : List Str} (hes : ∀ e ∈ es, e = [] ∨ IsName e) (node : List Str) :
    es.foldl place node = follow node (es.map moveOf) := by
  induction es generalizing node with
  | nil => rfl
  | cons e es ih =>
    rw [List.foldl_cons, place_element (hes e List.mem_cons_self),
      ih fun e he => hes e (List.mem_cons_of_mem _ he)]
    rfl

lemma countP_proper {es : List Str} (hes : ∀ e ∈ es.filter (· ≠ []), IsProper e) :
    es.countP (fun e => e ≠ [] ∧ e ≠ dot ∧ e ≠ dotDot) = (es.filter (· ≠ [])).length ∧
      es.countP (· = dotDot) = 0 := by
  induction es with
  | nil => exact ⟨rfl, rfl⟩
  | cons e es ih =>
    by_cases he : e = []
    · subst he
      rw [List.filter_cons_of_neg (by simp)] at hes ⊢
      obtain ⟨hproper, hups⟩ := ih hes
      rw [List.countP_cons_of_neg (by simp), List.countP_cons_of_neg (by decide)]
      exact ⟨hproper, hups⟩
    · rw [List.filter_cons_of_pos (by simpa using he)] at hes ⊢
      obtain ⟨hproper, hups⟩ := ih fun e he => hes e (List.mem_cons_of_mem _ he)
      obtain ⟨hname, hdot, hdotDot⟩ := hes e List.mem_cons_self
      rw [List.countP_cons_of_pos (by simp [he, hdot, hdotDot]),
        List.countP_cons_of_neg (by simpa using hdotDot)]
      exact ⟨congrArg (· + 1) hproper, hups⟩

lemma filter_of_head {common es : List Str} (h : p.relativeElements = common ++ es)
    (hes : es = [] ∨ es.head? = some []) :
    es.filter (· ≠ []) = [] := by
  rcases hes with rfl | hes
  · rfl
  obtain ⟨rest, rfl⟩ := List.head?_eq_some_iff.mp hes
  have hshort : (if p.isTrailed then [([] : Str)] else []).length ≤ 1 := by split_ifs <;> simp
  have hempty : rest.length = 0 := by
    rw [relativeElements] at h
    rcases List.append_eq_append_iff.mp h with ⟨k, -, htrail⟩ | ⟨k, hnames, hrest⟩
    · rw [htrail, List.length_append, List.length_cons] at hshort
      omega
    · cases k with
      | nil =>
        rw [List.nil_append] at hrest
        rw [← hrest, List.length_cons] at hshort
        omega
      | cons e k =>
        rw [List.cons_append, List.cons.injEq] at hrest
        have hmem : e ∈ p.names := by simp [hnames]
        exact absurd hrest.1.symm (isName_of_mem_names hmem).1
  rw [List.length_eq_zero_iff.mp hempty]
  rfl

def rootElement (p : Path) : Str := if p.names = [] then p else [slash]

lemma elements_absolute (hp : p.isAbsolute = true) :
    p.elements = rootElement p :: p.relativeElements := by
  rw [elements, rootElement, hp]
  split_ifs <;> simp_all

lemma isAbsolute_rootElement (hp : p.isAbsolute = true) : isAbsolute (rootElement p) = true := by
  rw [rootElement]
  split_ifs
  · exact hp
  · rfl

lemma names_rootElement (p : Path) : names (rootElement p) = [] := by
  rw [rootElement]
  split_ifs with h
  · exact h
  · rfl

lemma foldl_place_elements (hp : p.isAbsolute = true) (node : List Str) :
    p.elements.foldl place node = place node p := by
  rw [elements_absolute hp, List.foldl_cons, place_absolute (isAbsolute_rootElement hp),
    names_rootElement,
    foldl_place (relativeElements_names p), follow_filter, filter_relativeElements,
      place_absolute hp]
  rfl

section Relative

variable (hp : p.isAbsolute = true) (hbase : base.isAbsolute = true)

include hp hbase

lemma place_lexicallyRelative_roots (hbasenames : ∀ n ∈ base.names, IsProper n)
    (hroots : rootElement p ≠ rootElement base) (node : List Str) :
    place node (append base (lexicallyRelative p base)) = place node p := by
  have hmismatch : mismatch p.elements base.elements = (p.elements, base.elements) := by
    rw [elements_absolute hp, elements_absolute hbase, mismatch, if_neg hroots]
  have hproper : ∀ e ∈ base.relativeElements.filter (· ≠ []), IsProper e := by
    rwa [filter_relativeElements]
  obtain ⟨hcount, hups⟩ := countP_proper hproper
  have hroot := isAbsolute_rootElement hbase
  have hhead : rootElement base ≠ [] ∧ rootElement base ≠ dot ∧ rootElement base ≠ dotDot := by
    refine ⟨?_, ?_, ?_⟩ <;> intro h <;> rw [h] at hroot <;> cases hroot
  have hcounts : base.elements.countP (fun e => e ≠ [] ∧ e ≠ dot ∧ e ≠ dotDot) =
      (base.relativeElements.filter (· ≠ [])).length + 1 := by
    rw [elements_absolute hbase, List.countP_cons_of_pos (by simpa using hhead), hcount]
  have hdots : base.elements.countP (· = dotDot) = 0 := by
    rw [elements_absolute hbase, List.countP_cons_of_neg (by simpa using hhead.2.2), hups]
  have hne : p.elements ≠ [] := by simp [elements_absolute hp]
  rw [lexicallyRelative, if_neg (by simp [hp, hbase])]
  simp only [hmismatch, hcounts, hdots]
  rw [if_neg fun h => hne h.1, if_neg (by omega),
    if_neg fun h => by omega, place_append, place_foldl_append,
    List.foldl_append, foldl_place_elements hp, place_absolute hp, place_absolute hp]

lemma place_lexicallyRelative (hpnames : ∀ n ∈ p.names, IsProper n)
    (hbasenames : ∀ n ∈ base.names, IsProper n)
    (node : List Str) : place node (append base (lexicallyRelative p base)) = place node p := by
  by_cases hroots : rootElement p ≠ rootElement base
  · exact place_lexicallyRelative_roots hp hbase hbasenames hroots node
  obtain ⟨common, hps, hbases⟩ := mismatch_append p.relativeElements base.relativeElements
  have hmismatch : mismatch p.elements base.elements =
      mismatch p.relativeElements base.relativeElements := by
    rw [elements_absolute hp, elements_absolute hbase, mismatch, if_pos (not_not.mp hroots)]
  obtain ⟨a, b, hab⟩ : ∃ a b, mismatch p.relativeElements base.relativeElements = (a, b) :=
    ⟨_, _, rfl⟩
  rw [hab] at hmismatch hps hbases
  simp only at hps hbases
  have hpfilter := congrArg (List.filter (· ≠ [])) hps
  have hbasefilter := congrArg (List.filter (· ≠ [])) hbases
  rw [filter_relativeElements, List.filter_append] at hpfilter hbasefilter
  have hplace : place node p = p.names := by
    rw [place_absolute hp, map_moveOf_proper hpnames, follow_downs, List.nil_append]
  have hplacebase : place node base = base.names := by
    rw [place_absolute hbase, map_moveOf_proper hbasenames, follow_downs, List.nil_append]
  have hbproper : ∀ e ∈ b.filter (· ≠ []), IsProper e := by
    intro e he
    exact hbasenames e (by rw [hbasefilter]; exact List.mem_append_right _ he)
  obtain ⟨hcount, hups⟩ := countP_proper hbproper
  rw [place_append, hplacebase, hplace, lexicallyRelative, if_neg (by simp [hp, hbase])]
  simp only [hmismatch, hcount, hups]
  split_ifs with hboth hneg hnone
  · obtain ⟨rfl, rfl⟩ := hboth
    rw [hpfilter, hbasefilter]
    rfl
  · omega
  · obtain ⟨hzero, hhead⟩ := hnone
    have hb : b.filter (· ≠ []) = [] := List.length_eq_zero_iff.mp (by omega)
    rw [hpfilter, hbasefilter, hb, filter_of_head hps hhead]
    rfl
  · have helements : ∀ e ∈ List.replicate (b.filter (· ≠ [])).length dotDot ++ a, e = [] ∨
        IsName e := by
      intro e he
      rcases List.mem_append.mp he with he | he
      · rw [List.eq_of_mem_replicate he]
        exact Or.inr ⟨by decide, by decide⟩
      · exact relativeElements_names p e (by rw [hps]; exact List.mem_append_right _ he)
    have haproper : ∀ e ∈ a.filter (· ≠ []), IsProper e := by
      intro e he
      exact hpnames e (by rw [hpfilter]; exact List.mem_append_right _ he)
    have htoNat : ((b.filter (· ≠ [])).length - (0 : ℕ) : ℤ).toNat =
      (b.filter (· ≠ [])).length := by omega
    rw [htoNat, place_foldl_append]
    have hstart : place base.names [] = base.names := rfl
    rw [hstart, foldl_place helements, List.map_append, follow_append, List.map_replicate,
      moveOf_dotDot, follow_ups,
      follow_filter, map_moveOf_proper haproper, follow_downs, hbasefilter, hpfilter,
        List.length_append,
      Nat.add_sub_cancel, List.take_left']
    rfl

end Relative

/-- `relativeTo` gives a path that, joined with the base directory, leads to the target, if the
forms that the file system calls canonical are absolute and normal. -/
theorem relative_joined_with_base {weaklyCanonical : Path → Path} (hpwd : pwd.isAbsolute = true)
    (hcanonical : ∀ p, p.isAbsolute = true → (weaklyCanonical p).isAbsolute = true ∧
      lexicallyNormal (weaklyCanonical p) = weaklyCanonical p) (base path : Str) (node : List Str) :
    place node (fsPathJoinAll [weaklyCanonical (absoluteOf pwd base),
      fsPathRelativeTo weaklyCanonical pwd base path]) =
      place node (weaklyCanonical (absoluteOf pwd path)) := by
  have hproper : ∀ p : Path, p.isAbsolute = true → ∀ n ∈ (weaklyCanonical p).names, IsProper n := by
    intro p hp
    obtain ⟨habsolute, hnormal⟩ := hcanonical p hp
    rw [← hnormal]
    exact isProper_lexicallyNormal habsolute
  have hbase := isAbsolute_absoluteOf hpwd base
  have hpath := isAbsolute_absoluteOf hpwd path
  exact place_lexicallyRelative (hcanonical _ hpath).1 (hcanonical _ hbase).1 (hproper _ hpath)
    (hproper _ hbase) node

/-- Where no name is a link, the normal form is the canonical one. -/
theorem relative_joined_without_links :
    place [] (fsPathJoinAll [lit "/w/a/b",
      fsPathRelativeTo lexicallyNormal (lit "/w") (lit "a/b") (lit "a/c/../d")]) =
      [lit "w", lit "a", lit "d"] := by
  have hcanonical : ∀ p : Path, p.isAbsolute = true → (lexicallyNormal p).isAbsolute = true ∧
      lexicallyNormal (lexicallyNormal p) = lexicallyNormal p :=
    fun p hp => ⟨(isAbsolute_lexicallyNormal p).trans hp, lexicallyNormal_idempotent p⟩
  have hpwd : isAbsolute (lit "/w") = true := by decide
  have hplace := relative_joined_with_base hpwd hcanonical (lit "a/b") (lit "a/c/../d") []
  have hbase : lexicallyNormal (absoluteOf (lit "/w") (lit "a/b")) = lit "/w/a/b" := by decide
  rw [hbase] at hplace
  rw [hplace]
  decide

end Catter.Fs
