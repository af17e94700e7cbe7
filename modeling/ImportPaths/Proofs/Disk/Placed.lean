import ImportPaths.Proofs.Disk.Files

/-!
# A file put at a place

A file is written where a name of a directory stands for nothing yet, or for a file: there a tree
`Takes` it.  To someone who goes through the tree afterwards it `Gains` that file, and nothing else
changes (`Takes.gains`).  So every path leads where it led, but for those that led to the name when
it stood for nothing (`Leads.gains`, `Leads.of_gains`), and what is written next goes to the place
where it would have gone before (`Grounded.writePlace_gains`).
-/

namespace ImportPaths

namespace Node

variable {node root child new : Node} {name : Segment} {place q : Place} {bytes : ByteArray}
variable {entries : List (Segment × Node)}

/-! ## In the tree -/

theorem lookup_setEntry (name other : Segment) (new : Node) (entries : List (Segment × Node)) :
    (setEntry name new entries).lookup other =
      if other = name then some new else entries.lookup other := by
  induction entries with
  | nil =>
    rw [setEntry, List.lookup_cons]
    split
    · rename_i h
      rw [if_pos (eq_of_beq h)]
    · rename_i h
      rw [if_neg (ne_of_beq_false h)]
  | cons e entries ih =>
    obtain ⟨first, node⟩ := e
    rw [setEntry]
    split
    · rename_i hname
      subst hname
      rw [List.lookup_cons, List.lookup_cons]
      by_cases h : other = first
      · simp [h]
      · simp [beq_false_of_ne h, h]
    · rename_i hname
      rw [List.lookup_cons, List.lookup_cons, ih]
      by_cases h : other = first
      · simp [h, hname]
      · simp [beq_false_of_ne h]

/-- The places of a tree where a file can be put: a name of a directory that stands for nothing yet,
or for a file. -/
inductive Takes : Node → Place → Prop
  | here {entries : List (Segment × Node)} {name : Segment}
      (h : ∀ child, entries.lookup name = some child → child.isFile = true) :
      Takes (.directory entries) [name]
  | inside {entries : List (Segment × Node)} {name : Segment} {child : Node} {place : Place}
      (hchild : entries.lookup name = some child) (h : Takes child place) :
      Takes (.directory entries) (name :: place)

theorem takes_of_get? {dir : Place} (hdir : node.get? dir = some (.directory entries))
    (h : ∀ child, node.get? (dir ++ [name]) = some child → child.isFile = true) :
    Takes node (dir ++ [name]) := by
  induction dir generalizing node with
  | nil =>
    cases Option.some.inj hdir
    refine .here fun child hchild => h child ?_
    rw [List.nil_append, get?, child?, hchild]
    rfl
  | cons first dir ih =>
    obtain ⟨next, hnext, hget⟩ := Option.bind_eq_some_iff.1 hdir
    obtain ⟨entries, rfl, hlookup⟩ := child?_eq_some hnext
    refine .inside hlookup (ih hget fun child hchild => h child ?_)
    rw [List.cons_append, get?, hnext, Option.bind_some, hchild]

/-- Over a file another one can be put. -/
theorem takes_of_file (hroot : node.isDirectory = true) (h : node.get? place = some (.file bytes)) :
    Takes node place := by
  obtain ⟨entries, hdir⟩ := isDirectory_dropLast hroot h
  rcases List.eq_nil_or_concat place with rfl | ⟨dir, name, rfl⟩
  · cases hdir.symm.trans h
  · rw [List.concat_eq_append, List.dropLast_concat] at hdir
    rw [List.concat_eq_append] at h ⊢
    refine takes_of_get? hdir fun child hchild => ?_
    cases hchild.symm.trans h
    rfl

/-- Nothing but a file stands where a file can be put. -/
theorem Takes.isFile (h : Takes root place) (hchild : root.get? place = some child) :
    child.isFile = true := by
  induction h with
  | @here entries name h =>
    obtain ⟨node, hnode, hget⟩ := Option.bind_eq_some_iff.1 hchild
    cases hget
    exact h _ hnode
  | inside hnext h ih =>
    rw [get?, child?, hnext] at hchild
    exact ih hchild

/-- What was put at a place stands there. -/
theorem Takes.get?_put (h : Takes root place) (new : Node) :
    (root.put place new).get? place = some new := by
  induction h with
  | here h => simp [put, get?, child?, lookup_setEntry]
  | inside hchild h ih =>
    rw [put_cons hchild, get?, child?, lookup_setEntry, if_pos rfl]
    exact ih

/-- Nothing stands below a file. -/
theorem get?_of_isFile (h : node.isFile = true) (hq : q ≠ []) : node.get? q = none := by
  cases q with
  | nil => exact absurd rfl hq
  | cons name q =>
    cases node with
    | file bytes => rfl
    | link target => cases h
    | directory entries => cases h

/-- At every other place the same stands as before, but for what a directory holds. -/
theorem Takes.alike_put (h : Takes root place) (bytes : ByteArray) (hq : q ≠ place) :
    (root.put place (.file bytes)).get? q = root.get? q ∨ ∃ old new,
      root.get? q = some (.directory old) ∧
        (root.put place (.file bytes)).get? q = some (.directory new) := by
  induction h generalizing q with
  | @here entries name h =>
    rcases q with _ | ⟨other, rest⟩
    · exact .inr ⟨entries, setEntry name (.file bytes) entries, rfl, by simp [put, get?]⟩
    left
    simp only [put, get?, child?, lookup_setEntry]
    split
    · rename_i hother
      subst hother
      have hrest : rest ≠ [] := by simpa using hq
      rw [Option.bind_some, get?_of_isFile rfl hrest]
      cases hchild : entries.lookup other with
      | none => rfl
      | some child => exact (get?_of_isFile (h child hchild) hrest).symm
    · rfl
  | @inside entries name child place hchild h ih =>
    rw [put_cons hchild]
    rcases q with _ | ⟨other, rest⟩
    · exact .inr ⟨_, _, rfl, rfl⟩
    simp only [get?, child?, lookup_setEntry]
    split
    · rename_i hother
      subst hother
      rw [hchild]
      exact ih (by simpa using hq)
    · exact .inl rfl

/-- The tree `after` is `before` with a file at a place, as far as one can tell by going there. -/
structure Gains (before : Node) (place : Place) (bytes : ByteArray) (after : Node) : Prop where
  written : after.get? place = some (.file bytes)
  free : ∀ child, before.get? place = some child → child.isFile = true
  alike : ∀ q ≠ place, after.get? q = before.get? q ∨ ∃ old new,
    before.get? q = some (.directory old) ∧ after.get? q = some (.directory new)

theorem Takes.gains (h : Takes root place) (bytes : ByteArray) :
    Gains root place bytes (root.put place (.file bytes)) :=
  ⟨h.get?_put _, fun _ => h.isFile, fun _ => h.alike_put bytes⟩

variable {before after : Node}

theorem Gains.get?_eq_iff (h : Gains before place bytes after) (hq : q ≠ place)
    (hnode : ∀ entries, node ≠ .directory entries) :
    after.get? q = some node ↔ before.get? q = some node := by
  rcases h.alike q hq with heq | ⟨old, new, hold, hnew⟩
  · rw [heq]
  · simp [hold, hnew, (hnode _).symm]

theorem Gains.get?_eq_none_iff (h : Gains before place bytes after) (hq : q ≠ place) :
    after.get? q = none ↔ before.get? q = none := by
  rcases h.alike q hq with heq | ⟨old, new, hold, hnew⟩
  · rw [heq]
  · simp [hold, hnew]

theorem Gains.directory_iff (h : Gains before place bytes after) :
    (∃ entries, after.get? q = some (.directory entries)) ↔
      ∃ entries, before.get? q = some (.directory entries) := by
  by_cases hq : q = place
  · subst hq
    constructor
    · rintro ⟨entries, hnew⟩
      cases hnew.symm.trans h.written
    · rintro ⟨entries, hold⟩
      cases h.free _ hold
  · rcases h.alike q hq with heq | ⟨old, new, hold, hnew⟩
    · rw [heq]
    · simp [hold, hnew]

/-- A file can be put at the same places. -/
theorem Gains.free_iff (h : Gains before place bytes after) :
    (∀ child, after.get? q = some child → child.isFile = true) ↔
      ∀ child, before.get? q = some child → child.isFile = true := by
  by_cases hq : q = place
  · subst hq
    refine ⟨fun _ => h.free, fun _ child hchild => ?_⟩
    cases hchild.symm.trans h.written
    rfl
  · rcases h.alike q hq with heq | ⟨old, new, hold, hnew⟩
    · rw [heq]
    · simp [hold, hnew, isFile]

/-- To put what is there changes nothing. -/
theorem WellFormed.put_self (hn : node.WellFormed) (h : node.get? place = some (.file bytes)) :
    node.put place (.file bytes) = node := by
  rw [hn.put_eq_mapFiles h]
  refine (hn.mapFiles_congr ?_).trans hn.mapFiles_id
  intro q old hq
  split
  · rename_i heq
    subst heq
    cases hq.symm.trans h
    rfl
  · rfl

end Node

/-- A target once a file was put at a place: there it is found. -/
def Target.onceWritten (place : Place) : Target → Target
  | .found spot => .found spot
  | .absent dir name => if dir ++ [name] = place then .found { place } else .absent dir name

theorem Target.onceWritten_onceWritten_eq_found_iff {target : Target} {place q : Place} :
    (target.onceWritten place).onceWritten q = .found { place := q } ↔
      target.onceWritten q = .found { place := q } := by
  cases target with
  | found spot => rfl
  | absent dir name =>
    by_cases hplace : dir ++ [name] = place
    · by_cases hq : place = q <;> simp [onceWritten, hplace, hq]
    · simp [onceWritten, hplace]

namespace Disk

open Node

variable {d d' : Disk} {path : Path} {text : List Char} {before after : Node} {place q : Place}
variable {bytes : ByteArray} {target : Target} {root : Node} {dir : Place} {name : Segment}
variable {purpose : Purpose} {links : Nat} {spot : Spot} {steps : List Segment}

/-- What was found is still found, and so is the file where nothing was. -/
theorem Leads.gains (hgain : Gains before place bytes after)
    (h : Leads before purpose links spot steps target) :
    Leads after purpose links spot steps (target.onceWritten place) := by
  induction h with
  | here => exact .here
  | idle hs h ih => exact .idle hs ih
  | up h ih => exact .up ih
  | @absent links spot s hs hnode =>
    rw [Target.onceWritten]
    split
    · rename_i heq
      subst heq
      exact .file hs hgain.written
    · rename_i hne
      exact .absent hs ((hgain.get?_eq_none_iff hne).2 hnode)
  | @file links spot s old hs hnode =>
    by_cases heq : spot.place ++ [s] = place
    · subst heq
      exact .file hs hgain.written
    · exact .file hs ((hgain.get?_eq_iff heq (by simp)).2 hnode)
  | directory hs hnode h ih =>
    obtain ⟨entries, hnew⟩ := hgain.directory_iff.2 ⟨_, hnode⟩
    exact .directory hs hnew ih
  | @link links spot s rest target path hs hnode h ih =>
    have hne : spot.place ++ [s] ≠ place := by
      rintro rfl
      cases hgain.free _ hnode
    exact .link hs ((hgain.get?_eq_iff hne (by simp)).2 hnode) ih

/-- What is found now was found before, or nothing was there. -/
theorem Leads.of_gains (hgain : Gains before place bytes after)
    (h : Leads after purpose links spot steps target) :
    ∃ old, target = old.onceWritten place ∧ Leads before purpose links spot steps old := by
  induction h with
  | @here links spot => exact ⟨.found spot, rfl, .here⟩
  | idle hs h ih =>
    obtain ⟨old, rfl, hold⟩ := ih
    exact ⟨old, rfl, .idle hs hold⟩
  | up h ih =>
    obtain ⟨old, rfl, hold⟩ := ih
    exact ⟨old, rfl, .up hold⟩
  | @absent links spot s hs hnode =>
    have hne : spot.place ++ [s] ≠ place := by
      rintro rfl
      cases hnode.symm.trans hgain.written
    refine ⟨.absent spot.place s, ?_, .absent hs ((hgain.get?_eq_none_iff hne).1 hnode)⟩
    rw [Target.onceWritten, if_neg hne]
  | @file links spot s new hs hnode =>
    by_cases heq : spot.place ++ [s] = place
    · subst heq
      rcases hold : before.get? (spot.place ++ [s]) with _ | node
      · exact ⟨.absent spot.place s, (if_pos rfl).symm, .absent hs hold⟩
      · cases node with
        | file old => exact ⟨_, rfl, .file hs hold⟩
        | link path => cases hgain.free _ hold
        | directory entries => cases hgain.free _ hold
    · exact ⟨_, rfl, .file hs ((hgain.get?_eq_iff heq (by simp)).1 hnode)⟩
  | directory hs hnode h ih =>
    obtain ⟨old, rfl, hold⟩ := ih
    obtain ⟨entries, hentries⟩ := hgain.directory_iff.1 ⟨_, hnode⟩
    exact ⟨old, rfl, .directory hs hentries hold⟩
  | @link links spot s rest target path hs hnode h ih =>
    obtain ⟨old, rfl, hold⟩ := ih
    have hne : spot.place ++ [s] ≠ place := by
      rintro rfl
      cases hnode.symm.trans hgain.written
    exact ⟨old, rfl, .link hs ((hgain.get?_eq_iff hne (by simp)).1 hnode) hold⟩

/-! ## On a disk -/

/-- Where a walk can arrive: at a directory or a file, or at a name of a directory that stands for
nothing. -/
def Arrives (root : Node) : Target → Prop
  | .found spot =>
    StandsIn root spot ∨ spot.gone = 0 ∧ ∃ bytes, root.get? spot.place = some (.file bytes)
  | .absent dir name =>
    (∃ entries, root.get? dir = some (.directory entries)) ∧ root.get? (dir ++ [name]) = none

theorem Leads.arrives (hroot : root.isDirectory = true) (hspot : StandsIn root spot)
    (h : Leads root purpose links spot steps target) : Arrives root target := by
  induction h with
  | here => exact .inl hspot
  | idle hs h ih => exact ih hspot
  | up h ih => exact ih (hspot.up hroot)
  | absent hs hnode => exact ⟨hspot, hnode⟩
  | file hs hnode => exact .inr ⟨rfl, _, hnode⟩
  | directory hs hnode h ih => exact ih ⟨_, hnode⟩
  | link hs hnode h ih => exact ih (hspot.start hroot _)

/-- A disk on which one stands in a directory. -/
structure Grounded (d : Disk) : Prop where
  directory : d.root.isDirectory = true
  stands : StandsIn d.root d.cwd

theorem WellFormed.grounded (hd : d.WellFormed) : d.Grounded := ⟨hd.directory, hd.stands⟩

theorem Grounded.gains (hd : d.Grounded) (hgain : Gains d.root place bytes after) :
    Grounded { d with root := after } := by
  refine ⟨?_, hgain.directory_iff.2 hd.stands⟩
  obtain ⟨entries, hroot⟩ := hgain.directory_iff (q := []) |>.2 (standsIn_root hd.directory)
  cases Option.some.inj hroot
  rfl

theorem Grounded.arrives (hd : d.Grounded) (h : d.resolveFor purpose path = .ok target) :
    Arrives d.root target := by
  obtain ⟨-, -, -, hleads⟩ := resolveFor_eq_ok_iff.1 h
  exact hleads.arrives hd.directory (hd.stands.start hd.directory path)

/-- A file is written where the path leads once the file is there. -/
theorem Grounded.writePlace_eq_ok_iff (hd : d.Grounded) :
    d.writePlace path = .ok place ↔ ∃ target, d.resolveFor .write path = .ok target ∧
      target.onceWritten place = .found { place } ∧
        ∀ child, d.root.get? place = some child → child.isFile = true := by
  rw [writePlace]
  rcases hresolve : d.resolveFor .write path with fault | ⟨spot⟩ | ⟨dir, name⟩
  · simp
  · simp only [Except.ok.injEq, exists_eq_left', Target.onceWritten, Target.found.injEq]
    rcases hd.arrives hresolve with ⟨entries, hentries⟩ | ⟨hgone, bytes, hbytes⟩
    · -- a directory is no place for a file
      have hnode : d.nodeAt? spot = some (.directory entries) ∨
          d.nodeAt? spot = some (.directory []) := by
        rw [nodeAt?]
        split
        · exact .inl hentries
        · exact .inr rfl
      constructor
      · rcases hnode with hnode | hnode <;> rw [hnode] <;> simp
      · rintro ⟨rfl, hfree⟩
        cases hfree _ hentries
    · obtain ⟨found, gone⟩ := spot
      obtain rfl : gone = 0 := hgone
      have hnode : d.nodeAt? { place := found } = some (.file bytes) := hbytes
      rw [hnode]
      simp only [Except.ok.injEq, Spot.mk.injEq, and_true]
      refine ⟨?_, And.left⟩
      rintro rfl
      refine ⟨rfl, fun child hchild => ?_⟩
      cases hchild.symm.trans hbytes
      rfl
  · obtain ⟨-, hnone⟩ := hd.arrives hresolve
    simp only [Except.ok.injEq, exists_eq_left', Target.onceWritten]
    by_cases hplace : dir ++ [name] = place
    · subst hplace
      simp [hnone]
    · simp [hplace]

/-- A file can be put where it is written. -/
theorem Grounded.takes (hd : d.Grounded) (h : d.writePlace path = .ok place) :
    Takes d.root place := by
  obtain ⟨target, hresolve, hfound, hfree⟩ := hd.writePlace_eq_ok_iff.1 h
  have harrives := hd.arrives hresolve
  cases target with
  | found spot =>
    obtain rfl := Target.found.inj hfound
    rcases harrives with ⟨entries, hentries⟩ | ⟨-, bytes, hbytes⟩
    · cases hfree _ hentries
    · exact takes_of_file hd.directory hbytes
  | absent dir name =>
    obtain ⟨⟨entries, hentries⟩, -⟩ := harrives
    rw [Target.onceWritten] at hfound
    split at hfound
    · rename_i hplace
      subst hplace
      exact takes_of_get? hentries hfree
    · cases hfound

/-- What is written once a file was put somewhere goes to the same place as before. -/
theorem Grounded.writePlace_gains (hd : d.Grounded) (hgain : Gains d.root place bytes after) :
    Disk.writePlace { d with root := after } path = .ok q ↔ d.writePlace path = .ok q := by
  have hresolve (target : Target) :
      Disk.resolveFor { d with root := after } .write path = .ok target ↔
        ∃ old, target = old.onceWritten place ∧ d.resolveFor .write path = .ok old := by
    simp only [resolveFor_eq_ok_iff]
    constructor
    · rintro ⟨hnul, hne, hlong, hleads⟩
      obtain ⟨old, rfl, hold⟩ := hleads.of_gains hgain
      exact ⟨old, rfl, hnul, hne, hlong, hold⟩
    · rintro ⟨old, rfl, hnul, hne, hlong, hold⟩
      exact ⟨hnul, hne, hlong, hold.gains hgain⟩
  rw [(hd.gains hgain).writePlace_eq_ok_iff, hd.writePlace_eq_ok_iff]
  simp only [hresolve, hgain.free_iff]
  constructor
  · rintro ⟨-, ⟨old, rfl, hold⟩, hfound, hfree⟩
    exact ⟨old, hold, Target.onceWritten_onceWritten_eq_found_iff.1 hfound, hfree⟩
  · rintro ⟨old, hold, hfound, hfree⟩
    exact ⟨_, ⟨old, rfl, hold⟩, Target.onceWritten_onceWritten_eq_found_iff.2 hfound, hfree⟩

/-- A path that holds nothing is written where nothing stands. -/
theorem Grounded.get?_of_not_holds (hd : d.Grounded) (hholds : d.holds path = false)
    (h : d.writePlace path = .ok place) : d.root.get? place = none := by
  obtain ⟨target, hresolve, hfound, -⟩ := hd.writePlace_eq_ok_iff.1 h
  cases target with
  | found spot =>
    obtain rfl := Target.found.inj hfound
    obtain ⟨hnul, hne, hlong, hleads⟩ := resolveFor_eq_ok_iff.1 hresolve
    have hlead : d.LeadsTo path place :=
      resolveFor_eq_ok_iff.2 ⟨hnul, hne, hlong, hleads.look⟩
    simpa [holds, hlead.find?_eq] using hholds
  | absent dir name =>
    rw [Target.onceWritten] at hfound
    split at hfound
    · rename_i hplace
      exact hplace ▸ (hd.arrives hresolve).2
    · cases hfound

/-- The disk with a file at a place. -/
def withText (d : Disk) (place : Place) (text : List Char) : Disk :=
  { d with root := d.root.put place (.file (encode text)) }

theorem writeText_eq_ok_iff :
    d.writeText path text = .ok d' ↔
      ∃ place, d.writePlace path = .ok place ∧ d' = d.withText place text := by
  rw [writeText]
  cases d.writePlace path with
  | error fault => simp
  | ok place =>
    simp only [Except.ok.injEq, exists_eq_left']
    exact eq_comm

theorem writeText_eq_error_iff {fault : DiskFault} :
    d.writeText path text = .error fault ↔ d.writePlace path = .error fault := by
  rw [writeText]
  cases d.writePlace path <;> simp

/-! ## After a file was written -/

theorem Grounded.gains_withText (hd : d.Grounded) (h : d.writePlace path = .ok place)
    (text : List Char) : Gains d.root place (encode text) (d.withText place text).root :=
  (hd.takes h).gains _

theorem Grounded.withText (hd : d.Grounded) (h : d.writePlace path = .ok place)
    (text : List Char) : (d.withText place text).Grounded :=
  hd.gains (hd.gains_withText h text)

/-- The next file goes to the same place as it would have gone before. -/
theorem Grounded.writePlace_withText (hd : d.Grounded) (h : d.writePlace path = .ok place)
    {path' : Path} :
    (d.withText place text).writePlace path' = .ok q ↔ d.writePlace path' = .ok q :=
  hd.writePlace_gains (hd.gains_withText h text)

/-- The other files are there as before. -/
theorem Grounded.get?_withText_iff (hd : d.Grounded) (h : d.writePlace path = .ok place)
    (hq : q ≠ place) :
    (d.withText place text).root.get? q = some (.file bytes) ↔
      d.root.get? q = some (.file bytes) :=
  (hd.gains_withText h text).get?_eq_iff hq (by simp)

/-- The disk is as before exactly when the text was there. -/
theorem WellFormed.withText_eq_self_iff (hd : d.WellFormed) (h : d.writePlace path = .ok place) :
    d.withText place text = d ↔ d.root.get? place = some (.file (encode text)) := by
  constructor
  · intro heq
    rw [← (hd.grounded.gains_withText h text).written, heq]
  · intro hsame
    rw [Disk.withText, hd.tree.put_self hsame]

end Disk

end ImportPaths
