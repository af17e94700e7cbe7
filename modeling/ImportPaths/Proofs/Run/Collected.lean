import ImportPaths.Proofs.Path.Order
import ImportPaths.Proofs.Run.Sources

/-!
# Which files a run looks at, and in which order

The files of a tree are those to which some names lead through no directory that is left alone
(`WellFormed.mem_files_iff`).  They come in the order of paths (`WellFormed.pairwise_before_files`):
the entries of a directory are sorted by name, a path through one of them has its name as the next
component, and so the names decide between two entries before anything below them does.
-/

namespace ImportPaths

/-! ## Names joined to a path -/

namespace Path

variable {p : Path} {s : Segment} {names : List Segment}

theorem components_join_name (hp : p.chars ≠ []) (hs : IsName s) :
    (p.join ⟨s⟩).components = p.components ++ [.name s] := by
  rw [components_join hp (isAbsolute_name hs), steps_name hs]

theorem components_joinNames (hp : p.chars ≠ []) (hnames : ∀ s ∈ names, IsName s) :
    (p.joinNames names).components = p.components ++ names.map .name := by
  induction names generalizing p with
  | nil => simp [joinNames]
  | cons s names ih =>
    obtain ⟨hs, hnames⟩ := List.forall_mem_cons.1 hnames
    rw [joinNames, List.foldl_cons, ← joinNames, ih (chars_join_ne_nil hp hs) hnames,
      components_join_name hp hs, List.append_assoc, List.singleton_append, List.map_cons]

end Path

/-! ## The files of a tree -/

namespace Node

variable {node : Node} {entries : List (Segment × Node)} {path p : Path} {names : List Segment}

/-- No file stands below a file, and a directory is none. -/
theorem HasFile.isDirectory_iff (h : node.HasFile names) :
    node.isDirectory = true ↔ names ≠ [] := by
  obtain ⟨bytes, hget⟩ := h
  cases names with
  | nil =>
    obtain rfl : node = .file bytes := Option.some.inj hget
    simp [isDirectory]
  | cons name names =>
    obtain ⟨_, hchild, -⟩ := Option.bind_eq_some_iff.1 hget
    obtain ⟨entries, rfl, -⟩ := child?_eq_some hchild
    simp [isDirectory]

theorem hasFile_directory_iff (hd : (entries.map Prod.fst).Nodup) :
    (Node.directory entries).HasFile names ↔
      ∃ e ∈ entries, ∃ rest, names = e.1 :: rest ∧ e.2.HasFile rest := by
  constructor
  · rintro ⟨bytes, hget⟩
    cases names with
    | nil => cases hget
    | cons name rest =>
      obtain ⟨child, hchild, hfile⟩ := Option.bind_eq_some_iff.1 hget
      exact ⟨(name, child), mem_of_lookup hchild, rest, rfl, bytes, hfile⟩
  · rintro ⟨e, he, rest, rfl, hfile⟩
    exact hfile.cons hd he

theorem mem_files_directory :
    p ∈ (Node.directory entries).files path ↔
      ∃ e ∈ entries, (e.2.isDirectory = true → isSkippedName e.1 = false) ∧
        p ∈ e.2.files (path.join ⟨e.1⟩) := by
  simp only [files, List.mem_flatMap, sortByName, List.mem_mergeSort, filesOf_eq_map, List.mem_map,
    List.mem_filter, Bool.not_eq_true', Bool.and_eq_false_imp]
  constructor
  · rintro ⟨_, ⟨e, ⟨he, hkept⟩, rfl⟩, hp⟩
    exact ⟨e, he, hkept, hp⟩
  · rintro ⟨e, he, hkept, hp⟩
    exact ⟨_, ⟨e, ⟨he, hkept⟩, rfl⟩, hp⟩

/-- No directory that some names lead through is left alone. -/
def Open (names : List Segment) : Prop := ∀ name ∈ names.dropLast, isSkippedName name = false

theorem open_nil : Open [] := fun _ h => nomatch h

theorem open_cons {name : Segment} :
    Open (name :: names) ↔ (names ≠ [] → isSkippedName name = false) ∧ Open names := by
  cases names <;> simp [Open]

theorem open_concat {dirs : List Segment} {name : Segment} :
    Open (dirs ++ [name]) ↔ ∀ dir ∈ dirs, dir.head? ≠ some '.' ∧ dir ≠ "node_modules".toList := by
  simp only [Open, List.dropLast_concat, isSkippedName, Bool.or_eq_false_iff, beq_eq_false_iff_ne]

/-- The files of a tree are those to which open names lead. -/
theorem WellFormed.mem_files_iff (hn : node.WellFormed) :
    p ∈ node.files path ↔ ∃ names, node.HasFile names ∧ Open names ∧ p = path.joinNames names := by
  induction hn generalizing path with
  | file bytes =>
    constructor
    · intro hp
      exact ⟨[], ⟨bytes, rfl⟩, open_nil, List.mem_singleton.1 hp⟩
    · rintro ⟨names, hfile, -, rfl⟩
      obtain rfl : names = [] := by simpa [isDirectory] using hfile.isDirectory_iff
      exact List.mem_singleton_self path
  | link target =>
    constructor
    · intro hp
      cases hp
    · rintro ⟨names, hfile, -, -⟩
      obtain rfl : names = [] := by simpa [isDirectory] using hfile.isDirectory_iff
      obtain ⟨_, hget⟩ := hfile
      cases hget
  | @directory entries distinct names children ih =>
    rw [mem_files_directory]
    constructor
    · rintro ⟨e, he, hkept, hp⟩
      obtain ⟨rest, hfile, hopen, rfl⟩ := (ih e he).1 hp
      exact ⟨e.1 :: rest, hfile.cons distinct he,
        open_cons.2 ⟨fun hne => hkept (hfile.isDirectory_iff.2 hne), hopen⟩, rfl⟩
    · rintro ⟨_, hfile, hopen, rfl⟩
      obtain ⟨e, he, rest, rfl, hbelow⟩ := (hasFile_directory_iff distinct).1 hfile
      obtain ⟨hkept, hopen⟩ := open_cons.1 hopen
      exact ⟨e, he, fun hdir => hkept (hbelow.isDirectory_iff.1 hdir),
        (ih e he).2 ⟨rest, hbelow, hopen, rfl⟩⟩

/-- Below a directory the last name is that of the file, and the names before it are those of the
directories on the way. -/
theorem WellFormed.mem_files_directory_iff (hn : (Node.directory entries).WellFormed) :
    p ∈ (Node.directory entries).files path ↔
      ∃ dirs name, (Node.directory entries).HasFile (dirs ++ [name]) ∧
        (∀ dir ∈ dirs, dir.head? ≠ some '.' ∧ dir ≠ "node_modules".toList) ∧
        p = path.joinNames (dirs ++ [name]) := by
  rw [hn.mem_files_iff]
  constructor
  · rintro ⟨names, hfile, hopen, rfl⟩
    have hne := hfile.isDirectory_iff.1 rfl
    rw [← List.dropLast_concat_getLast hne] at hfile hopen ⊢
    exact ⟨_, _, hfile, open_concat.1 hopen, rfl⟩
  · rintro ⟨dirs, name, hfile, hdirs, rfl⟩
    exact ⟨_, hfile, open_concat.2 hdirs, rfl⟩

/-! ## Their order -/

theorem nodup_map_fst_filesOf (hd : (entries.map Prod.fst).Nodup) :
    ((filesOf path entries).map Prod.fst).Nodup := by
  rw [filesOf_eq_map, List.map_map]
  exact hd.sublist (List.filter_sublist.map Prod.fst)

/-- In a directory each name comes strictly after those before it. -/
theorem pairwise_sortByName {α : Type} {entries : List (Segment × α)}
    (hd : (entries.map Prod.fst).Nodup) :
    (sortByName entries).Pairwise fun x y => Text.le x.1 y.1 = true ∧ x.1 ≠ y.1 := by
  have hsorted : (sortByName entries).Pairwise fun x y => Text.le x.1 y.1 = true := by
    apply List.pairwise_mergeSort
    · intro x y z
      exact Text.le_trans
    · intro x y
      exact Text.le_total x.1 y.1
  have hnames : ((sortByName entries).map Prod.fst).Nodup :=
    ((List.mergeSort_perm entries _).map Prod.fst).nodup_iff.2 hd
  exact hsorted.and (List.pairwise_map.1 hnames)

/-- Behind its own path, the path of a file has the name of its entry. -/
theorem WellFormed.exists_components_of_mem_files (hn : node.WellFormed) (hpath : path.chars ≠ [])
    {name : Segment} (hname : IsName name) (hp : p ∈ node.files (path.join ⟨name⟩)) :
    ∃ rest, p.components = path.components ++ .name name :: rest := by
  obtain ⟨names, ⟨_, hfile⟩, rfl⟩ := hn.exists_of_mem_files hp
  refine ⟨names.map .name, ?_⟩
  rw [Path.components_joinNames (Path.chars_join_ne_nil hpath hname) (hn.isName_of_get? hfile),
    Path.components_join_name hpath hname, List.append_assoc, List.singleton_append]

/-- The files of a tree come in the order of paths. -/
theorem WellFormed.pairwise_before_files (hn : node.WellFormed) (hpath : path.chars ≠ []) :
    (node.files path).Pairwise Path.Before := by
  induction hn generalizing path with
  | file bytes => exact List.pairwise_singleton _ _
  | link target => exact List.Pairwise.nil
  | @directory entries distinct names children ih =>
    rw [files, List.pairwise_flatMap]
    constructor
    · -- below one entry
      intro x hx
      obtain ⟨e, he, rfl⟩ := mem_sortByName_filesOf hx
      exact ih e he (Path.chars_join_ne_nil hpath (names e he))
    · -- below two entries
      refine (pairwise_sortByName (nodup_map_fst_filesOf distinct)).imp_of_mem ?_
      rintro x y hx hy ⟨hle, hne⟩ p hp q hq
      obtain ⟨e, he, rfl⟩ := mem_sortByName_filesOf hx
      obtain ⟨e', he', rfl⟩ := mem_sortByName_filesOf hy
      obtain ⟨ps, hps⟩ := (children e he).exists_components_of_mem_files hpath (names e he) hp
      obtain ⟨qs, hqs⟩ := (children e' he').exists_components_of_mem_files hpath (names e' he') hq
      exact Path.before_of_names hps hqs hle hne

end Node

/-! ## The files of a run -/

/-- The empty path leads nowhere. -/
theorem Disk.chars_ne_nil_of_find? {d : Disk} {p : Path} {node : Node}
    (h : d.find? p = some node) : p.chars ≠ [] := by
  obtain ⟨_, hresolve, -⟩ := find?_eq_some h
  exact (resolveFor_eq_ok_iff.1 hresolve).2.1

namespace Settings

variable {s : Settings} {d : Disk} {entries : List (Segment × Node)}

theorem sources_of_find? (h : d.find? s.scanRoot = some (.directory entries)) :
    s.sources d = .ok (((Node.directory entries).files s.scanRoot).filter s.selects) := by
  rw [sources, h]

theorem sources_eq_error_iff :
    s.sources d = .error (.scanRootNotFound s.scanRoot) ↔ d.isDir s.scanRoot = false := by
  unfold sources Disk.isDir
  rcases d.find? s.scanRoot with _ | ⟨_⟩ | ⟨_⟩ | ⟨entries⟩ <;> simp [Node.isDirectory]

/-- A run looks at the files with one of the extensions that stand below the scan root, in no
directory whose name starts with a dot or is `node_modules`.  They come in the order of their
paths, each once.  There is no answer exactly where the scan root is no directory. -/
theorem sources_exact (s : Settings) (d : Disk) (hd : d.root.WellFormed) :
    (s.sources d = .error (.scanRootNotFound s.scanRoot) ↔ d.isDir s.scanRoot = false) ∧
      ∀ entries, d.find? s.scanRoot = some (.directory entries) →
        ∃ paths, s.sources d = .ok paths ∧ paths.Pairwise Path.Before ∧ paths.Nodup ∧
          ∀ p, p ∈ paths ↔ s.selects p = true ∧
            ∃ dirs name, (Node.directory entries).HasFile (dirs ++ [name]) ∧
              (∀ dir ∈ dirs, dir.head? ≠ some '.' ∧ dir ≠ "node_modules".toList) ∧
              p = s.scanRoot.joinNames (dirs ++ [name]) := by
  refine ⟨sources_eq_error_iff, ?_⟩
  intro entries hfind
  have hn := Disk.wellFormed_of_find? hd hfind
  have hbefore : (((Node.directory entries).files s.scanRoot).filter s.selects).Pairwise
      Path.Before :=
    (hn.pairwise_before_files (Disk.chars_ne_nil_of_find? hfind)).filter _
  refine ⟨_, sources_of_find? hfind, hbefore, ?_, ?_⟩
  · refine hbefore.imp ?_
    rintro p _ h rfl
    exact p.before_irrefl h
  · intro p
    rw [List.mem_filter, and_comm, hn.mem_files_directory_iff]

end Settings

/-! ## A directory with dots -/

/-- A file with a dot, a directory with a dot, and a plain directory. -/
def dottedEntries : List (Segment × Node) :=
  [(".c.ts".toList, .file .empty), (".git".toList, .directory [("b.ts".toList, .file .empty)]),
    ("a".toList, .directory [("x.ts".toList, .file .empty)])]

/-- These entries below `/p`. -/
def dottedDisk : Disk where
  root := .directory [(['p'], .directory dottedEntries)]

/-- Settings to run there. -/
def dottedSettings : Settings := { scanRoot := .ofString "/p", projectRoot := .ofString "/p" }

theorem wellFormed_dottedDisk : dottedDisk.root.WellFormed := by
  have hname {s : Segment} (h : isPlainSegment s = true ∧ '/' ∉ s) : IsName s := ⟨h.1, h.2⟩
  have hsingle {s : Segment} {node : Node} (hs : IsName s) (hn : node.WellFormed) :
      (Node.directory [(s, node)]).WellFormed :=
    .directory (by simp) (List.forall_mem_singleton.2 hs) (List.forall_mem_singleton.2 hn)
  refine hsingle (hname (by decide)) (.directory (by decide) ?_ ?_)
  · simp only [dottedEntries, List.forall_mem_cons]
    exact ⟨hname (by decide), hname (by decide), hname (by decide), fun _ h => nomatch h⟩
  · simp only [dottedEntries, List.forall_mem_cons]
    exact ⟨.file _, hsingle (hname (by decide)) (.file _), hsingle (hname (by decide)) (.file _),
      fun _ h => nomatch h⟩

theorem find?_dottedDisk :
    dottedDisk.find? dottedSettings.scanRoot = some (.directory dottedEntries) := by
  have hname : Disk.Passes .look { place := [] } ['p'] [] :=
    ⟨by decide, by decide, by decide, rfl, by decide⟩
  have hleads : dottedDisk.LeadsTo dottedSettings.scanRoot [['p']] :=
    Disk.resolveFor_eq_ok_iff.2 ⟨by decide, by decide, by decide,
      .idle (by decide) (.directory hname rfl .here)⟩
  exact hleads.find?_eq

/-- The file with a dot is among the files there, what stands in the directory with a dot is not. -/
theorem Settings.sources_exact_dotted :
    dottedDisk.root.WellFormed ∧
      dottedDisk.find? dottedSettings.scanRoot = some (.directory dottedEntries) ∧
      ∃ paths, dottedSettings.sources dottedDisk = .ok paths ∧ paths.Pairwise Path.Before ∧
        Path.ofString "/p/.c.ts" ∈ paths ∧ Path.ofString "/p/a/x.ts" ∈ paths ∧
        Path.ofString "/p/.git/b.ts" ∉ paths := by
  have hfind := find?_dottedDisk
  obtain ⟨paths, hs, hbefore, -, hmem⟩ :=
    (sources_exact dottedSettings dottedDisk wellFormed_dottedDisk).2 _ hfind
  refine ⟨wellFormed_dottedDisk, hfind, paths, hs, hbefore, ?_, ?_, ?_⟩
  · exact (hmem _).2 ⟨by decide, [], ".c.ts".toList, ⟨_, rfl⟩, by simp, by decide⟩
  · exact (hmem _).2 ⟨by decide, ["a".toList], "x.ts".toList, ⟨_, rfl⟩, by decide, by decide⟩
  · intro h
    obtain ⟨-, dirs, name, ⟨_, hfile⟩, hdirs, hp⟩ := (hmem _).1 h
    have hnames := (Disk.wellFormed_of_find? wellFormed_dottedDisk hfind).isName_of_get? hfile
    have htrunk := congrArg Path.trunk hp
    rw [(Path.trunk_joinNames (by decide) hnames).1] at htrunk
    have hgit : dirs ++ [name] = [".git".toList] ++ ["b.ts".toList] :=
      List.append_cancel_left htrunk.symm
    obtain ⟨rfl, -⟩ := List.append_singleton_inj.1 hgit
    exact (hdirs _ List.mem_cons_self).1 rfl

end ImportPaths
