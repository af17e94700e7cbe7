import ImportPaths.Proofs.Disk.Files
import ImportPaths.Run.Sources

/-!
# Where the files of a run stand

A file that a run looks at is named by the scan root and the names that lead to it in the tree below
(`exists_of_mem_files`), and such a path leads to the place with these names and to no other
(`resolve_joinNames`).  No two files of a run are named alike, so they stand at different places
(`pairwise_sources`), and what is in the files plays no part in which they are
(`sources_mapFiles`).
-/

namespace ImportPaths

/-! ## Names joined to a path -/

namespace Path

variable {p : Path} {s : Segment} {names : List Segment}

/-- A path followed by some names. -/
def joinNames (p : Path) (names : List Segment) : Path :=
  names.foldl (fun p name => p.join ⟨name⟩) p

/-- The segments of a path without the empty one behind a slash at its end. -/
def trunk (p : Path) : List Segment :=
  if p.chars.getLast? = some '/' then (p.chars.splitOn '/').dropLast else p.chars.splitOn '/'

/-- A path with a name behind it ends in this name. -/
theorem exists_chars_join (hp : p.chars ≠ []) (hs : IsName s) :
    ∃ t, (p.join ⟨s⟩).chars = t ++ '/' :: s ∧ t.splitOn '/' = p.trunk := by
  rw [join, if_neg (by simp [isAbsolute_name hs, hp])]
  unfold trunk
  by_cases hlast : p.chars.getLast? = some '/'
  · obtain ⟨t, ht⟩ := List.getLast?_eq_some_iff.1 hlast
    refine ⟨t, ?_, ?_⟩
    · rw [if_pos (by simp [hlast]), ht, List.append_assoc, List.singleton_append]
    · rw [if_pos hlast, ht, List.splitOn_append_cons_self, List.splitOn_nil, List.dropLast_concat]
  · refine ⟨p.chars, ?_, ?_⟩
    · rw [if_neg (by simpa using hlast)]
    · rw [if_neg hlast]

theorem chars_join_ne_nil (hp : p.chars ≠ []) (hs : IsName s) : (p.join ⟨s⟩).chars ≠ [] := by
  obtain ⟨t, ht, -⟩ := exists_chars_join hp hs
  simp [ht]

theorem splitOn_join (hp : p.chars ≠ []) (hs : IsName s) :
    (p.join ⟨s⟩).chars.splitOn '/' = p.trunk ++ [s] := by
  obtain ⟨t, ht, htrunk⟩ := exists_chars_join hp hs
  rw [ht, List.splitOn_append_cons_self, htrunk, List.splitOn_eq_singleton hs.no_slash]

theorem trunk_join (hp : p.chars ≠ []) (hs : IsName s) : (p.join ⟨s⟩).trunk = p.trunk ++ [s] := by
  rw [trunk, if_neg, splitOn_join hp hs]
  obtain ⟨t, ht, -⟩ := exists_chars_join hp hs
  rw [ht, List.append_cons, List.getLast?_append_of_ne_nil _ hs.ne_nil]
  intro hlast
  exact hs.no_slash (List.mem_of_getLast? hlast)

theorem isAbsolute_join_name (hp : p.chars ≠ []) (hs : IsName s) :
    (p.join ⟨s⟩).isAbsolute = p.isAbsolute := by
  rw [join, if_neg (by simp [isAbsolute_name hs, hp])]
  split <;> rw [isAbsolute, isAbsolute, List.head?_append_of_ne_nil _ hp]

theorem trunk_joinNames (hp : p.chars ≠ []) (hnames : ∀ s ∈ names, IsName s) :
    (p.joinNames names).trunk = p.trunk ++ names ∧
      (p.joinNames names).isAbsolute = p.isAbsolute := by
  induction names generalizing p with
  | nil => simp [joinNames]
  | cons s names ih =>
    have hs := hnames s List.mem_cons_self
    obtain ⟨htrunk, habs⟩ := ih (chars_join_ne_nil hp hs)
      fun t ht => hnames t (List.mem_cons_of_mem _ ht)
    constructor
    · rw [joinNames, List.foldl_cons, ← joinNames, htrunk, trunk_join hp hs, List.append_assoc,
        List.singleton_append]
    · rw [joinNames, List.foldl_cons, ← joinNames, habs, isAbsolute_join_name hp hs]

end Path

namespace Disk

variable {d : Disk} {p : Path} {names : List Segment} {target : Target} {bytes : ByteArray}

/-- To what a path leads, it leads without a slash at its end. -/
theorem Leads.trunk {root : Node} {links : Nat} {spot : Spot}
    (h : Leads root .look links spot (p.chars.splitOn '/') target) :
    Leads root .look links spot p.trunk target := by
  rw [Path.trunk]
  split
  · rename_i hlast
    obtain ⟨t, ht⟩ := List.getLast?_eq_some_iff.1 hlast
    rw [ht, List.splitOn_append_cons_self, List.splitOn_nil] at h
    rw [ht, List.splitOn_append_cons_self, List.splitOn_nil, List.dropLast_concat]
    exact h.of_slash
  · exact h

theorem start_joinNames (hp : p.chars ≠ []) (hnames : ∀ s ∈ names, IsName s) :
    d.start (p.joinNames names) = d.start p := by
  rw [start, start, (Path.trunk_joinNames hp hnames).2]

/-- The names of a file below a directory lead from there to it and nowhere else. -/
theorem resolve_joinNames {dir : Spot} {entries : List (Segment × Node)}
    (hroot : d.resolve p = .ok (.found dir)) (hdir : d.nodeAt? dir = some (.directory entries))
    (hnames : ∀ s ∈ names, IsName s)
    (hfile : (Node.directory entries).get? names = some (.file bytes))
    (h : d.resolve (p.joinNames names) = .ok target) :
    target = .found { place := dir.place ++ names } ∧
      d.root.get? (dir.place ++ names) = some (.file bytes) := by
  obtain ⟨-, hne, -, hleads⟩ := resolveFor_eq_ok_iff.1 hroot
  obtain ⟨-, -, -, hleads'⟩ := resolveFor_eq_ok_iff.1 h
  obtain ⟨place, gone⟩ := dir
  -- a directory that was removed holds no file
  have hgone : gone = 0 := by
    by_contra hgone
    rw [nodeAt?, if_neg hgone] at hdir
    cases hdir
    cases names <;> cases hfile
  subst hgone
  have hdir : d.root.get? place = some (.directory entries) := hdir
  obtain ⟨left, hon⟩ := hleads.trunk.append (by simp [hdir]) names
  have htrunk := hleads'.trunk.walk_eq
  rw [(Path.trunk_joinNames hne hnames).1, start_joinNames hne hnames, hon] at htrunk
  have hget : d.root.get? (place ++ names) = some (.file bytes) := by
    rw [Node.get?_append, hdir, Option.bind_some, hfile]
  exact ⟨(leads_of_walk htrunk).eq_of_names hnames hget, hget⟩

theorem find?_eq_some {node : Node} (h : d.find? p = some node) :
    ∃ spot, d.resolve p = .ok (.found spot) ∧ d.nodeAt? spot = some node := by
  unfold find? at h
  split at h
  · rename_i spot hresolve
    exact ⟨spot, hresolve, h⟩
  · cases h

/-- What a path leads to is well-formed. -/
theorem wellFormed_of_find? {node : Node} (hd : d.root.WellFormed)
    (h : d.find? p = some node) : node.WellFormed := by
  obtain ⟨spot, -, hnode⟩ := find?_eq_some h
  unfold nodeAt? at hnode
  split at hnode
  · exact hd.get? hnode
  · cases hnode
    exact .directory List.nodup_nil (fun _ he => nomatch he) fun _ he => nomatch he

end Disk

/-! ## The files below a directory -/

namespace Node

variable {node child : Node} {place : Place} {entries : List (Segment × Node)} {path p q : Path}

/-- The names that lead through a tree are plain. -/
theorem WellFormed.isName_of_get? (hn : node.WellFormed) (h : node.get? place = some child) :
    ∀ s ∈ place, IsName s := by
  induction place generalizing node with
  | nil => exact fun s hs => nomatch hs
  | cons name place ih =>
    obtain ⟨next, hnext, hget⟩ := Option.bind_eq_some_iff.1 h
    obtain ⟨entries, rfl, hlookup⟩ := child?_eq_some hnext
    cases hn with
    | directory distinct names children =>
      have hmem := mem_of_lookup hlookup
      intro s hs
      rcases List.mem_cons.1 hs with rfl | hs
      · exact names _ hmem
      · exact ih (children _ hmem) hget s hs

theorem filesOf_eq_map (path : Path) (entries : List (Segment × Node)) :
    filesOf path entries =
      (entries.filter fun e => !(e.2.isDirectory && isSkippedName e.1)).map fun e =>
        (e.1, e.2.files (path.join ⟨e.1⟩)) := by
  induction entries with
  | nil => rfl
  | cons e entries ih =>
    rw [filesOf, ih, List.filter_cons]
    cases e.2.isDirectory && isSkippedName e.1 <;> rfl

/-- What is in the files plays no part in which there are. -/
theorem WellFormed.files_mapFiles (hn : node.WellFormed) (f : Place → ByteArray → ByteArray)
    (path : Path) : (node.mapFiles f).files path = node.files path := by
  induction hn generalizing f path with
  | file bytes => rfl
  | link target => rfl
  | @directory entries distinct names children ih =>
    have hfiles : filesOf path (mapFilesOf f entries) = filesOf path entries := by
      rw [filesOf_eq_map, filesOf_eq_map, mapFilesOf_eq_map, List.filter_map, List.map_map]
      simp only [Function.comp_def, isDirectory_mapFiles]
      refine List.map_congr_left ?_
      intro e he
      rw [ih e (List.mem_of_mem_filter he)]
    rw [Node.mapFiles, files, files, hfiles]

/-- Some names lead to a file. -/
def HasFile (node : Node) (names : List Segment) : Prop :=
  ∃ bytes, node.get? names = some (.file bytes)

theorem HasFile.cons (hd : (entries.map Prod.fst).Nodup) {e : Segment × Node} (he : e ∈ entries)
    {names : List Segment} (h : e.2.HasFile names) :
    (Node.directory entries).HasFile (e.1 :: names) := by
  obtain ⟨bytes, hget⟩ := h
  refine ⟨bytes, ?_⟩
  rw [get?, child?, lookup_of_mem hd he, Option.bind_some, hget]

theorem mem_sortByName_filesOf {x : Segment × List Path} :
    x ∈ sortByName (filesOf path entries) →
      ∃ e ∈ entries, x = (e.1, e.2.files (path.join ⟨e.1⟩)) := by
  intro h
  rw [sortByName, List.mem_mergeSort, filesOf_eq_map] at h
  obtain ⟨e, he, rfl⟩ := List.mem_map.1 h
  exact ⟨e, List.mem_of_mem_filter he, rfl⟩

/-- Each file is named by the names that lead to it. -/
theorem WellFormed.exists_of_mem_files (hn : node.WellFormed) (h : p ∈ node.files path) :
    ∃ names, node.HasFile names ∧ p = path.joinNames names := by
  induction hn generalizing path with
  | file bytes => exact ⟨[], ⟨bytes, rfl⟩, List.mem_singleton.1 h⟩
  | link target => cases h
  | @directory entries distinct names children ih =>
    obtain ⟨x, hx, hp⟩ := List.mem_flatMap.1 h
    obtain ⟨e, he, rfl⟩ := mem_sortByName_filesOf hx
    obtain ⟨names, hfile, rfl⟩ := ih e he hp
    exact ⟨e.1 :: names, hfile.cons distinct he, rfl⟩

/-- Two files of a tree at `path`, by different names. -/
def Apart (node : Node) (path p q : Path) : Prop :=
  ∃ ns ms, ns ≠ ms ∧ node.HasFile ns ∧ node.HasFile ms ∧ p = path.joinNames ns ∧
    q = path.joinNames ms

/-- No file is listed twice. -/
theorem WellFormed.pairwise_files (hn : node.WellFormed) (path : Path) :
    (node.files path).Pairwise (node.Apart path) := by
  induction hn generalizing path with
  | file bytes => exact List.pairwise_singleton _ _
  | link target => exact List.Pairwise.nil
  | @directory entries distinct names children ih =>
    rw [files, List.pairwise_flatMap]
    constructor
    · intro x hx
      obtain ⟨e, he, rfl⟩ := mem_sortByName_filesOf hx
      refine (ih e he (path.join ⟨e.1⟩)).imp ?_
      rintro p q ⟨ns, ms, hne, hns, hms, rfl, rfl⟩
      exact ⟨e.1 :: ns, e.1 :: ms, by simpa using hne, hns.cons distinct he, hms.cons distinct he,
        rfl, rfl⟩
    · have hnames : ((sortByName (filesOf path entries)).map Prod.fst).Nodup := by
        have hperm := (List.mergeSort_perm (filesOf path entries)
          fun a b => Text.le a.1 b.1).map Prod.fst
        refine hperm.nodup_iff.2 ?_
        rw [filesOf_eq_map, List.map_map]
        exact distinct.sublist (List.filter_sublist.map Prod.fst)
      refine (List.pairwise_map.1 hnames).imp_of_mem ?_
      intro x y hx hy hne p hp q hq
      obtain ⟨e, he, rfl⟩ := mem_sortByName_filesOf hx
      obtain ⟨e', he', rfl⟩ := mem_sortByName_filesOf hy
      obtain ⟨ns, hns, rfl⟩ := (children e he).exists_of_mem_files hp
      obtain ⟨ms, hms, rfl⟩ := (children e' he').exists_of_mem_files hq
      exact ⟨e.1 :: ns, e'.1 :: ms, fun heq => hne (List.cons.inj heq).1, hns.cons distinct he,
        hms.cons distinct he', rfl, rfl⟩

end Node

/-! ## The files of a run -/

namespace Settings

variable {s : Settings} {d : Disk} {paths : List Path}

theorem sources_eq_ok (h : s.sources d = .ok paths) :
    ∃ entries, d.find? s.scanRoot = some (.directory entries) ∧
      paths = ((Node.directory entries).files s.scanRoot).filter s.selects := by
  unfold sources at h
  split at h
  · rename_i entries hfind
    exact ⟨entries, hfind, (Except.ok.inj h).symm⟩
  · cases h

theorem sources_eq_error {e : RunError} (h : s.sources d = .error e) :
    e = .scanRootNotFound s.scanRoot := by
  unfold sources at h
  split at h
  · cases h
  · exact (Except.error.inj h).symm

/-- What is in the files plays no part in which files a run looks at. -/
theorem sources_mapFiles (hd : d.WellFormed) (f : Place → ByteArray → ByteArray) :
    s.sources (d.mapFiles f) = s.sources d := by
  obtain ⟨g, hfind⟩ := Disk.exists_find?_mapFiles f d s.scanRoot
  unfold sources
  rw [hfind]
  rcases hnode : d.find? s.scanRoot with _ | ⟨bytes⟩ | ⟨path⟩ | ⟨entries⟩
  · rfl
  · rfl
  · rfl
  · have hfiles := (Disk.wellFormed_of_find? hd.tree hnode).files_mapFiles g s.scanRoot
    rw [Node.mapFiles] at hfiles
    simp only [Option.map_some, Node.mapFiles, hfiles]

/-- The files of a run stand at different places. -/
theorem pairwise_sources (hd : d.WellFormed) (h : s.sources d = .ok paths) :
    paths.Pairwise d.Apart := by
  obtain ⟨entries, hfind, rfl⟩ := sources_eq_ok h
  obtain ⟨dir, hresolve, hdir⟩ := Disk.find?_eq_some hfind
  have hn := Disk.wellFormed_of_find? hd.tree hfind
  refine List.Pairwise.filter _ ((hn.pairwise_files s.scanRoot).imp ?_)
  rintro p q ⟨ns, ms, hne, ⟨_, hns⟩, ⟨_, hms⟩, rfl, rfl⟩ place hp hq
  have hp' := Disk.resolve_joinNames hresolve hdir (hn.isName_of_get? hns) hns hp
  have hq' := Disk.resolve_joinNames hresolve hdir (hn.isName_of_get? hms) hms hq
  have hsame := hp'.1.symm.trans hq'.1
  simp only [Target.found.injEq, Spot.mk.injEq, List.append_cancel_left_eq, and_true] at hsame
  exact hne hsame

/-- Where the path of a file of a run leads anywhere, it leads to a file. -/
theorem leadsTo_file_of_mem_sources (hd : d.WellFormed) (h : s.sources d = .ok paths) {path : Path}
    (hpath : path ∈ paths) {target : Target} (htarget : d.resolve path = .ok target) :
    ∃ place bytes, d.LeadsTo path place ∧ d.root.get? place = some (.file bytes) := by
  obtain ⟨entries, hfind, rfl⟩ := sources_eq_ok h
  obtain ⟨dir, hresolve, hdir⟩ := Disk.find?_eq_some hfind
  have hn := Disk.wellFormed_of_find? hd.tree hfind
  obtain ⟨names, ⟨bytes, hfile⟩, rfl⟩ := hn.exists_of_mem_files (List.mem_of_mem_filter hpath)
  obtain ⟨rfl, hnode⟩ :=
    Disk.resolve_joinNames hresolve hdir (hn.isName_of_get? hfile) hfile htarget
  exact ⟨_, bytes, htarget, hnode⟩

end Settings

end ImportPaths
