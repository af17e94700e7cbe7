import ImportPaths.Disk.Node
import ImportPaths.Proofs.Path.Components

/-!
# Trees whose files get other bytes

A tree on a disk is `WellFormed`: the names in a directory are distinct, and each is a plain
segment.  `mapFiles` gives every file other bytes and keeps all else; what the files become may
depend on where they stand.  It is all that a run does to a tree: to write over a file is a
`mapFiles` (`put_eq_mapFiles`), and one after the other is one again (`mapFiles_mapFiles`).
-/

namespace ImportPaths.Node

variable {f g : Place → ByteArray → ByteArray} {name : Segment} {place : Place}
variable {node child : Node} {entries : List (Segment × Node)}

/-! ## Well-formed trees -/

/-- A tree in which the names of a directory are distinct and plain. -/
inductive WellFormed : Node → Prop
  | file (bytes : ByteArray) : WellFormed (.file bytes)
  | link (target : Path) : WellFormed (.link target)
  | directory {entries : List (Segment × Node)} (distinct : (entries.map Prod.fst).Nodup)
      (names : ∀ e ∈ entries, IsName e.1) (children : ∀ e ∈ entries, WellFormed e.2) :
      WellFormed (.directory entries)

/-- What is found under a name is the entry with that name. -/
theorem mem_of_lookup (h : entries.lookup name = some child) : (name, child) ∈ entries := by
  obtain ⟨front, back, rfl, -⟩ := List.lookup_eq_some_iff.1 h
  exact List.mem_append_right _ List.mem_cons_self

/-- An entry is found under its name. -/
theorem lookup_of_mem (hd : (entries.map Prod.fst).Nodup) (h : (name, child) ∈ entries) :
    entries.lookup name = some child := by
  obtain ⟨front, back, rfl⟩ := List.append_of_mem h
  refine List.lookup_eq_some_iff.2 ⟨front, back, rfl, ?_⟩
  intro e he
  rw [List.map_append, List.map_cons, List.nodup_append] at hd
  have hne := hd.2.2 e.1 (List.mem_map_of_mem he) name List.mem_cons_self
  exact bne_iff_ne.2 hne.symm

theorem child?_eq_some (h : node.child? name = some child) :
    ∃ entries, node = .directory entries ∧ entries.lookup name = some child := by
  cases node with
  | file bytes => cases h
  | link target => cases h
  | directory entries => exact ⟨entries, rfl, h⟩

/-- What stands below a place stands at the longer place. -/
theorem get?_append (node : Node) (front back : Place) :
    node.get? (front ++ back) = (node.get? front).bind (·.get? back) := by
  induction front generalizing node with
  | nil => rfl
  | cons name front ih =>
    rw [List.cons_append, get?, get?]
    cases node.child? name with
    | none => rfl
    | some child => exact ih child

theorem WellFormed.get? (hn : node.WellFormed) (h : node.get? place = some child) :
    child.WellFormed := by
  induction place generalizing node with
  | nil => exact Option.some.inj h ▸ hn
  | cons name place ih =>
    obtain ⟨next, hnext, hget⟩ := Option.bind_eq_some_iff.1 h
    obtain ⟨entries, rfl, hlookup⟩ := child?_eq_some hnext
    cases hn with
    | directory distinct names children => exact ih (children _ (mem_of_lookup hlookup)) hget

/-- Where something stands, a directory stands one step back. -/
theorem isDirectory_dropLast (hroot : node.isDirectory = true) (h : node.get? place = some child) :
    ∃ entries, node.get? place.dropLast = some (.directory entries) := by
  rcases List.eq_nil_or_concat place with rfl | ⟨front, name, rfl⟩
  · cases node with
    | file bytes => cases hroot
    | link target => cases hroot
    | directory entries => exact ⟨entries, rfl⟩
  · rw [List.concat_eq_append, get?_append] at h
    obtain ⟨next, hnext, hget⟩ := Option.bind_eq_some_iff.1 h
    obtain ⟨last, hlast, -⟩ := Option.bind_eq_some_iff.1 hget
    obtain ⟨entries, rfl, -⟩ := child?_eq_some hlast
    exact ⟨entries, by rw [List.concat_eq_append, List.dropLast_concat, hnext]⟩

/-! ## Other bytes in the files -/

mutual

/-- The tree with other bytes in its files, by where they stand. -/
def mapFiles (f : Place → ByteArray → ByteArray) : Node → Node
  | .file bytes => .file (f [] bytes)
  | .link target => .link target
  | .directory entries => .directory (mapFilesOf f entries)

def mapFilesOf (f : Place → ByteArray → ByteArray) :
    List (Segment × Node) → List (Segment × Node)
  | [] => []
  | (name, node) :: entries =>
    (name, node.mapFiles fun place => f (name :: place)) :: mapFilesOf f entries

end

/-- The tree without what is in its files. -/
def shape (node : Node) : Node := node.mapFiles fun _ _ => .empty

theorem mapFilesOf_eq_map (f : Place → ByteArray → ByteArray) (entries : List (Segment × Node)) :
    mapFilesOf f entries =
      entries.map fun e => (e.1, e.2.mapFiles fun place => f (e.1 :: place)) := by
  induction entries with
  | nil => rfl
  | cons e entries ih => rw [mapFilesOf, ih, List.map_cons]

theorem map_fst_mapFilesOf (f : Place → ByteArray → ByteArray) (entries : List (Segment × Node)) :
    (mapFilesOf f entries).map Prod.fst = entries.map Prod.fst := by
  rw [mapFilesOf_eq_map, List.map_map]
  rfl

@[simp] theorem isDirectory_mapFiles (f : Place → ByteArray → ByteArray) (node : Node) :
    (node.mapFiles f).isDirectory = node.isDirectory := by
  cases node <;> rfl

theorem lookup_mapFilesOf (f : Place → ByteArray → ByteArray) (name : Segment)
    (entries : List (Segment × Node)) :
    (mapFilesOf f entries).lookup name =
      (entries.lookup name).map (mapFiles fun place => f (name :: place)) := by
  induction entries with
  | nil => rfl
  | cons e entries ih =>
    rw [mapFilesOf, List.lookup_cons, List.lookup_cons]
    cases hname : name == e.1 with
    | false => exact ih
    | true =>
      rw [eq_of_beq hname]
      rfl

theorem child?_mapFiles (f : Place → ByteArray → ByteArray) (name : Segment) (node : Node) :
    (node.mapFiles f).child? name =
      (node.child? name).map (mapFiles fun place => f (name :: place)) := by
  cases node with
  | file bytes => rfl
  | link target => rfl
  | directory entries => exact lookup_mapFilesOf f name entries

/-- The same places are there, and at each stands what stood there, with other bytes in its
files. -/
theorem get?_mapFiles (f : Place → ByteArray → ByteArray) (node : Node) (place : Place) :
    (node.mapFiles f).get? place =
      (node.get? place).map (mapFiles fun rest => f (place ++ rest)) := by
  induction place generalizing node f with
  | nil => rfl
  | cons name place ih =>
    rw [get?, get?, child?_mapFiles]
    cases node.child? name with
    | none => rfl
    | some child => exact ih _ child

theorem WellFormed.mapFiles (h : node.WellFormed) (f : Place → ByteArray → ByteArray) :
    (node.mapFiles f).WellFormed := by
  induction h generalizing f with
  | file bytes => exact .file _
  | link target => exact .link target
  | directory distinct names children ih =>
    rw [Node.mapFiles]
    refine .directory ?_ ?_ ?_
    · rw [map_fst_mapFilesOf]
      exact distinct
    · intro e he
      rw [mapFilesOf_eq_map] at he
      obtain ⟨e', he', rfl⟩ := List.mem_map.1 he
      exact names e' he'
    · intro e he
      rw [mapFilesOf_eq_map] at he
      obtain ⟨e', he', rfl⟩ := List.mem_map.1 he
      exact ih e' he' _

/-- Only what becomes of the files that are there matters. -/
theorem WellFormed.mapFiles_congr (h : node.WellFormed)
    (hfg : ∀ place bytes, node.get? place = some (.file bytes) → f place bytes = g place bytes) :
    node.mapFiles f = node.mapFiles g := by
  induction h generalizing f g with
  | file bytes => exact congrArg Node.file (hfg [] bytes rfl)
  | link target => rfl
  | directory distinct names children ih =>
    rw [Node.mapFiles, Node.mapFiles, mapFilesOf_eq_map, mapFilesOf_eq_map]
    refine congrArg Node.directory (List.map_congr_left ?_)
    intro e he
    refine Prod.ext rfl (ih e he ?_)
    intro place bytes hget
    refine hfg (e.1 :: place) bytes ?_
    rw [Node.get?, child?, lookup_of_mem distinct he, Option.bind_some, hget]

theorem WellFormed.mapFiles_id (h : node.WellFormed) :
    node.mapFiles (fun _ bytes => bytes) = node := by
  induction h with
  | file bytes => rfl
  | link target => rfl
  | directory distinct names children ih =>
    rw [Node.mapFiles, mapFilesOf_eq_map]
    refine congrArg Node.directory ((List.map_congr_left ?_).trans (List.map_id _))
    intro e he
    exact Prod.ext rfl (ih e he)

theorem WellFormed.mapFiles_mapFiles (h : node.WellFormed) (f g : Place → ByteArray → ByteArray) :
    (node.mapFiles f).mapFiles g = node.mapFiles fun place bytes => g place (f place bytes) := by
  induction h generalizing f g with
  | file bytes => rfl
  | link target => rfl
  | directory distinct names children ih =>
    rw [Node.mapFiles, Node.mapFiles, Node.mapFiles, mapFilesOf_eq_map, mapFilesOf_eq_map,
      mapFilesOf_eq_map, List.map_map]
    refine congrArg Node.directory (List.map_congr_left ?_)
    intro e he
    exact Prod.ext rfl (ih e he _ _)

theorem WellFormed.shape_mapFiles (h : node.WellFormed) (f : Place → ByteArray → ByteArray) :
    (node.mapFiles f).shape = node.shape :=
  h.mapFiles_mapFiles f _

/-! ## Writing over a file -/

/-- To set an entry that is there changes this entry and no other. -/
theorem setEntry_eq_map (hd : (entries.map Prod.fst).Nodup)
    (h : entries.lookup name = some child) (new : Node) :
    setEntry name new entries = entries.map fun e => (e.1, if e.1 = name then new else e.2) := by
  induction entries with
  | nil => cases h
  | cons e entries ih =>
    rw [List.map_cons, List.nodup_cons] at hd
    rw [setEntry, List.map_cons]
    split
    · rename_i hname
      subst hname
      have hrest : entries.map (fun e' => (e'.1, if e'.1 = e.1 then new else e'.2)) = entries := by
        refine (List.map_congr_left ?_).trans (List.map_id _)
        intro e' he'
        have hne : e'.1 ≠ e.1 := fun heq => hd.1 (heq ▸ List.mem_map_of_mem he')
        rw [if_neg hne, id]
      rw [hrest]
    · rename_i hname
      rw [List.lookup_cons, beq_false_of_ne (Ne.symm hname)] at h
      rw [ih hd.2 h]

/-- To write below an entry is to write in what stands there. -/
theorem put_cons (h : entries.lookup name = some child) (place : Place) (new : Node) :
    (directory entries).put (name :: place) new =
      .directory (setEntry name (child.put place new) entries) := by
  cases place with
  | nil => simp [put]
  | cons next place => simp [put, h]

/-- To write over a file is to give that file other bytes, and every other file its own. -/
theorem WellFormed.put_eq_mapFiles {old : ByteArray} (hn : node.WellFormed)
    (h : node.get? place = some (.file old)) (new : ByteArray) :
    node.put place (.file new) =
      node.mapFiles fun q bytes => if q = place then new else bytes := by
  induction place generalizing node with
  | nil =>
    cases Option.some.inj h
    rfl
  | cons name place ih =>
    obtain ⟨child, hchild, hget⟩ := Option.bind_eq_some_iff.1 h
    obtain ⟨entries, rfl, hlookup⟩ := child?_eq_some hchild
    cases hn with
    | directory distinct names children =>
      rw [put_cons hlookup, setEntry_eq_map distinct hlookup, Node.mapFiles, mapFilesOf_eq_map]
      refine congrArg Node.directory (List.map_congr_left ?_)
      intro e he
      refine Prod.ext rfl ?_
      by_cases hname : e.1 = name
      · subst hname
        have hsame : e.2 = child :=
          Option.some.inj ((lookup_of_mem distinct he).symm.trans hlookup)
        simp only [if_true, List.cons.injEq, true_and]
        rw [ih (hsame ▸ children e he) hget, hsame]
      · simp only [List.cons.injEq, hname, false_and, if_false]
        exact ((children e he).mapFiles_id).symm

end ImportPaths.Node
