import ImportPaths.Proofs.Disk.Walk
import ImportPaths.Proofs.Text.Bytes

/-!
# Reading and writing the texts of files

On a well-formed disk a text that can be read at a path can be written there
(`writeText_of_leadsTo`), and that changes the bytes of the file which the path leads to and nothing
else (`overwrite`).  So writing is a `mapFiles` of the disk, which moves no path
(`leadsTo_mapFiles`), and what is read at a path afterwards is decided by the place it leads to
(`readText_mapFiles`).
-/

namespace ImportPaths

/-! ## Texts and bytes -/

/-- The bytes of a text after it was revised; what is no text stays. -/
def recode (g : List Char → List Char) (bytes : ByteArray) : ByteArray :=
  match decode? bytes with
  | some text => encode (g text)
  | none => bytes

theorem decode?_recode (g : List Char → List Char) (bytes : ByteArray) :
    decode? (recode g bytes) = (decode? bytes).map g := by
  unfold recode
  split
  · rename_i text ht
    rw [ht, decode?_encode, Option.map_some]
  · rename_i hnone
    rw [hnone, Option.map_none]

theorem recode_of_decode? {g : List Char → List Char} {bytes : ByteArray} {text : List Char}
    (h : decode? bytes = some text) : recode g bytes = encode (g text) := by
  rw [recode, h]

@[simp] theorem recode_encode (g : List Char → List Char) (text : List Char) :
    recode g (encode text) = encode (g text) :=
  recode_of_decode? (decode?_encode text)

@[simp] theorem recode_id (bytes : ByteArray) : recode id bytes = bytes := by
  unfold recode
  split
  · rename_i text ht
    exact encode_of_decode? ht
  · rfl

theorem recode_recode (g h : List Char → List Char) (bytes : ByteArray) :
    recode g (recode h bytes) = recode (g ∘ h) bytes := by
  cases htext : decode? bytes with
  | none =>
    have hstay (k : List Char → List Char) : recode k bytes = bytes := by rw [recode, htext]
    rw [hstay h, hstay g, hstay (g ∘ h)]
  | some text =>
    rw [recode_of_decode? htext, recode_of_decode? htext, recode_encode, Function.comp_apply]

namespace Disk

variable {d : Disk} {path : Path} {place : Place} {purpose : Purpose} {target : Target}
variable {bytes : ByteArray} {text : List Char} {f : Place → ByteArray → ByteArray}

/-! ## Disks and places -/

/-- A disk as it is found: its tree is a well-formed directory, and one stands in a directory. -/
structure WellFormed (d : Disk) : Prop where
  directory : d.root.isDirectory = true
  tree : d.root.WellFormed
  stands : StandsIn d.root d.cwd

/-- Where the walk along a path starts. -/
def start (d : Disk) (path : Path) : Spot := if path.isAbsolute then { place := [] } else d.cwd

theorem WellFormed.start (hd : d.WellFormed) (path : Path) : StandsIn d.root (d.start path) :=
  hd.stands.start hd.directory path

theorem resolveFor_eq_ok_iff :
    d.resolveFor purpose path = .ok target ↔
      '\x00' ∉ path.chars ∧ path.chars ≠ [] ∧ Text.utf8Size path.chars ≤ maxPathBytes ∧
        Leads d.root purpose maxLinks (d.start path) (path.chars.splitOn '/') target := by
  rw [← walk_eq_ok_iff]
  unfold resolveFor
  split
  · rename_i hnul
    simp [List.contains_iff_mem.1 hnul]
  · rename_i hnul
    split
    · rename_i hempty
      simp [List.isEmpty_iff.1 hempty]
    · rename_i hempty
      have hnul' : '\x00' ∉ path.chars := mt List.contains_iff_mem.2 hnul
      have hempty' : path.chars ≠ [] := mt List.isEmpty_iff.2 hempty
      split
      · rename_i hlong
        simp [Nat.not_le_of_lt hlong]
      · rename_i hlong
        simp only [hnul', not_false_eq_true, hempty', ne_eq, Nat.le_of_not_lt hlong, true_and]
        rfl

/-- Whether a path leads to what stands at a place. -/
def LeadsTo (d : Disk) (path : Path) (place : Place) : Prop :=
  d.resolve path = .ok (.found { place })

instance (d : Disk) (path : Path) (place : Place) : Decidable (d.LeadsTo path place) :=
  inferInstanceAs (Decidable (_ = _))

theorem LeadsTo.eq {place' : Place} (h : d.LeadsTo path place) (h' : d.LeadsTo path place') :
    place = place' := by
  have heq := h.symm.trans h'
  cases heq
  rfl

theorem LeadsTo.find?_eq (h : d.LeadsTo path place) : d.find? path = d.root.get? place := by
  have hresolve : d.resolve path = .ok (.found { place }) := h
  rw [find?, hresolve]
  rfl

/-- Two paths do not lead to one place. -/
def Apart (d : Disk) (p q : Path) : Prop := ∀ place, d.LeadsTo p place → ¬d.LeadsTo q place

instance (d : Disk) : Std.Symm d.Apart := ⟨fun _ _ h place hq hp => h place hp hq⟩

/-! ## Reading -/

/-- The text in what was found. -/
def textIn : Option Node → Except DiskFault (List Char)
  | some (.file bytes) => (decode? bytes).elim (.error .notText) .ok
  | some (.directory _) => .error .isDirectory
  | _ => .error .notFound

theorem textIn_eq_ok_iff {node : Option Node} :
    textIn node = .ok text ↔ ∃ bytes, node = some (.file bytes) ∧ decode? bytes = some text := by
  rcases node with _ | ⟨bytes⟩ | ⟨path⟩ | ⟨entries⟩
  · simp [textIn]
  · cases hbytes : decode? bytes <;> simp [textIn, hbytes]
  · simp [textIn]
  · simp [textIn]

theorem readText_eq (d : Disk) (path : Path) :
    d.readText path =
      match d.resolve path with
      | .error fault => .error fault
      | .ok (.absent _ _) => .error .notFound
      | .ok (.found spot) => textIn (d.nodeAt? spot) := by
  rw [readText]
  rcases d.resolve path with fault | ⟨spot⟩ | ⟨dir, name⟩
  · rfl
  · simp only [bind, Except.bind]
    rcases d.nodeAt? spot with _ | ⟨bytes⟩ | ⟨path⟩ | ⟨entries⟩
    · rfl
    · simp only [textIn, decode?]
      cases String.fromUTF8? bytes <;> rfl
    · rfl
    · rfl
  · rfl

/-- What is read at a path that leads to a place. -/
theorem LeadsTo.readText_eq (h : d.LeadsTo path place) :
    d.readText path = textIn (d.root.get? place) := by
  have hresolve : d.resolve path = .ok (.found { place }) := h
  rw [Disk.readText_eq, hresolve]
  rfl

theorem readText_eq_ok_iff :
    d.readText path = .ok text ↔ ∃ place bytes, d.LeadsTo path place ∧
      d.root.get? place = some (.file bytes) ∧ decode? bytes = some text := by
  constructor
  · intro h
    rw [readText_eq] at h
    split at h
    · cases h
    · cases h
    · rename_i spot hresolve
      obtain ⟨bytes, hnode, htext⟩ := textIn_eq_ok_iff.1 h
      unfold nodeAt? at hnode
      split at hnode
      · rename_i hgone
        obtain ⟨place, gone⟩ := spot
        subst hgone
        exact ⟨place, bytes, hresolve, hnode, htext⟩
      · cases hnode
  · rintro ⟨place, bytes, hlead, hnode, htext⟩
    rw [hlead.readText_eq, textIn_eq_ok_iff]
    exact ⟨bytes, hnode, htext⟩

/-- The text of the file at a path, if it can be read. -/
def textAt (d : Disk) (path : Path) : List Char := (d.readText path).toOption.getD []

theorem readText_eq_textAt (h : d.readText path = .ok text) :
    d.readText path = .ok (d.textAt path) := by
  rw [Disk.textAt, h]
  rfl

/-! ## Other bytes in the files of a disk -/

/-- The disk with other bytes in its files, by the places where they stand. -/
def mapFiles (f : Place → ByteArray → ByteArray) (d : Disk) : Disk :=
  { d with root := d.root.mapFiles f }

theorem WellFormed.mapFiles (hd : d.WellFormed) (f : Place → ByteArray → ByteArray) :
    (d.mapFiles f).WellFormed := by
  refine ⟨?_, hd.tree.mapFiles f, ?_⟩
  · rw [Disk.mapFiles, Node.isDirectory_mapFiles]
    exact hd.directory
  · obtain ⟨entries, he⟩ := hd.stands
    exact ⟨_, by rw [Disk.mapFiles, Node.get?_mapFiles, he, Option.map_some, Node.mapFiles]⟩

theorem resolveFor_mapFiles (f : Place → ByteArray → ByteArray) (d : Disk) (purpose : Purpose)
    (path : Path) : (d.mapFiles f).resolveFor purpose path = d.resolveFor purpose path := by
  simp only [resolveFor, mapFiles, walk_mapFiles]

/-- Paths lead where they led. -/
@[simp] theorem leadsTo_mapFiles :
    (d.mapFiles f).LeadsTo path place ↔ d.LeadsTo path place := by
  rw [LeadsTo, LeadsTo, resolve, resolve, resolveFor_mapFiles]

theorem nodeAt?_mapFiles (f : Place → ByteArray → ByteArray) (d : Disk) (spot : Spot) :
    (d.mapFiles f).nodeAt? spot =
      (d.nodeAt? spot).map (Node.mapFiles fun rest => f (spot.place ++ rest)) := by
  unfold nodeAt?
  split
  · exact Node.get?_mapFiles f d.root spot.place
  · rfl

/-- What a path leads to is as it was, with other bytes in its files. -/
theorem exists_find?_mapFiles (f : Place → ByteArray → ByteArray) (d : Disk) (path : Path) :
    ∃ g, (d.mapFiles f).find? path = (d.find? path).map (Node.mapFiles g) := by
  unfold find? resolve
  rw [resolveFor_mapFiles]
  rcases d.resolveFor .look path with fault | ⟨spot⟩ | ⟨dir, name⟩
  · exact ⟨f, rfl⟩
  · exact ⟨_, nodeAt?_mapFiles f d spot⟩
  · exact ⟨f, rfl⟩

/-- What is read at a path is decided by what becomes of the file it leads to. -/
theorem readText_mapFiles {g : List Char → List Char}
    (h : ∀ place, d.LeadsTo path place → f place = recode g) :
    (d.mapFiles f).readText path = (d.readText path).map g := by
  rw [readText_eq, readText_eq, resolve, resolveFor_mapFiles, ← resolve]
  rcases hresolve : d.resolve path with fault | ⟨spot⟩ | ⟨dir, name⟩
  · rfl
  · dsimp only
    rw [nodeAt?_mapFiles]
    rcases hnode : d.nodeAt? spot with _ | ⟨bytes⟩ | ⟨path⟩ | ⟨entries⟩
    · rfl
    · unfold nodeAt? at hnode
      split at hnode
      · rename_i hgone
        obtain ⟨place, gone⟩ := spot
        subst hgone
        rw [Option.map_some, Node.mapFiles, List.append_nil, h place hresolve, textIn, textIn,
          decode?_recode]
        cases decode? bytes <;> rfl
      · cases hnode
    · rfl
    · rfl
  · rfl

/-! ## Writing -/

/-- The disk with a text in the file at a place. -/
def overwrite (d : Disk) (place : Place) (text : List Char) : Disk :=
  d.mapFiles fun q old => if q = place then encode text else old

theorem WellFormed.overwrite (hd : d.WellFormed) (place : Place) (text : List Char) :
    (d.overwrite place text).WellFormed :=
  hd.mapFiles _

/-- A text is written to the place that the path leads to. -/
theorem writeText_of_leadsTo (hd : d.WellFormed) (h : d.LeadsTo path place)
    (hnode : d.root.get? place = some (.file bytes)) (text : List Char) :
    d.writeText path text = .ok (d.overwrite place text) := by
  obtain ⟨hnul, hne, hlong, hleads⟩ := resolveFor_eq_ok_iff.1 h
  have hfile : ¬StandsIn d.root { place } := by
    rintro ⟨entries, he⟩
    rw [hnode] at he
    cases he
  have hwrite : d.resolveFor .write path = .ok (.found { place }) :=
    resolveFor_eq_ok_iff.2 ⟨hnul, hne, hlong, hleads.write hd.directory (hd.start path) hfile⟩
  rw [writeText, writePlace, hwrite]
  simp only [nodeAt?, if_true, hnode]
  rw [hd.tree.put_eq_mapFiles hnode]
  rfl

/-- Where a text can be written, the path leads somewhere. -/
theorem resolve_of_writeText {d' : Disk} (h : d.writeText path text = .ok d') :
    ∃ target, d.resolve path = .ok target := by
  unfold writeText writePlace at h
  cases hwrite : d.resolveFor .write path with
  | error fault =>
    rw [hwrite] at h
    cases h
  | ok target =>
    obtain ⟨hnul, hne, hlong, hleads⟩ := resolveFor_eq_ok_iff.1 hwrite
    exact ⟨target, resolveFor_eq_ok_iff.2 ⟨hnul, hne, hlong, hleads.look⟩⟩

/-- What was written is read. -/
theorem LeadsTo.readText_overwrite (h : d.LeadsTo path place)
    (hnode : d.root.get? place = some (.file bytes)) (text : List Char) :
    (d.overwrite place text).readText path = .ok text := by
  refine readText_eq_ok_iff.2 ⟨place, encode text, leadsTo_mapFiles.2 h, ?_, decode?_encode text⟩
  rw [overwrite, mapFiles, Node.get?_mapFiles, hnode, Option.map_some, Node.mapFiles,
    List.append_nil, if_pos rfl]

/-- Elsewhere one reads what was there before. -/
theorem Apart.readText_overwrite {q : Path} (h : d.Apart path q) (hlead : d.LeadsTo path place)
    (text : List Char) : (d.overwrite place text).readText q = d.readText q := by
  have hread : (d.overwrite place text).readText q = (d.readText q).map id := by
    refine readText_mapFiles ?_
    intro place' hlead'
    funext bytes
    rw [if_neg, recode_id]
    rintro rfl
    exact h _ hlead hlead'
  rw [hread]
  cases d.readText q <;> rfl

end Disk

end ImportPaths
