import ImportPaths.Disk.Basic
import ImportPaths.Proofs.Disk.Tree

/-!
# Where paths lead

`Leads` says by rules which walks arrive, and where; a walk arrives exactly as the rules say
(`walk_eq_ok_iff`).

* What is in the files of a tree plays no part in any walk (`walk_mapFiles`).
* A walk that arrives at a directory goes on from there (`Leads.append`), and names lead through the
  tree below it (`Leads.eq_of_names`).
* A path that leads to a file when one looks leads there too when one writes (`Leads.write`), and a
  path that leads anywhere when one writes leads there when one looks (`Leads.look`).
-/

namespace ImportPaths.Disk

/-! ## Walks as rules -/

/-- A step that goes to a name: the name may stand there, and one stands in a directory that is
not removed. -/
structure Passes (purpose : Purpose) (spot : Spot) (s : Segment) (rest : List Segment) : Prop where
  not_idle : ¬Path.isIdle s = true
  not_up : s ≠ ['.', '.']
  not_slashes : ¬(purpose = .write ∧ isSlashes rest = true)
  not_gone : spot.gone = 0
  fits : Text.utf8Size s ≤ maxNameBytes

/-- The walks that arrive: from a spot along some steps, through at most so many links. -/
inductive Leads (root : Node) (purpose : Purpose) : Nat → Spot → List Segment → Target → Prop
  | here {links spot} : Leads root purpose links spot [] (.found spot)
  | idle {links spot s rest target} (hs : Path.isIdle s = true)
      (h : Leads root purpose links spot rest target) :
      Leads root purpose links spot (s :: rest) target
  | up {links spot rest target} (h : Leads root purpose links spot.up rest target) :
      Leads root purpose links spot (['.', '.'] :: rest) target
  | absent {links spot s} (hs : Passes purpose spot s [])
      (hnode : root.get? (spot.place ++ [s]) = none) :
      Leads root purpose links spot [s] (.absent spot.place s)
  | file {links spot s bytes} (hs : Passes purpose spot s [])
      (hnode : root.get? (spot.place ++ [s]) = some (.file bytes)) :
      Leads root purpose links spot [s] (.found { place := spot.place ++ [s] })
  | directory {links spot s rest target entries} (hs : Passes purpose spot s rest)
      (hnode : root.get? (spot.place ++ [s]) = some (.directory entries))
      (h : Leads root purpose links { place := spot.place ++ [s] } rest target) :
      Leads root purpose links spot (s :: rest) target
  | link {links spot s rest target path} (hs : Passes purpose spot s rest)
      (hnode : root.get? (spot.place ++ [s]) = some (.link path))
      (h : Leads root purpose links (if path.isAbsolute then { place := [] } else spot)
        (path.chars.splitOn '/' ++ rest) target) :
      Leads root purpose (links + 1) spot (s :: rest) target

variable {root : Node} {purpose : Purpose} {links : Nat} {spot dir : Spot} {target : Target}
variable {s : Segment} {steps rest more : List Segment}

theorem leads_of_walk (h : walk root purpose links spot steps = .ok target) :
    Leads root purpose links spot steps target := by
  fun_induction walk root purpose links spot steps with
  | case1 links spot =>
    cases h
    exact .here
  | case2 links spot s rest hs ih => exact .idle hs (ih h)
  | case3 links spot rest _ ih => exact .up (ih h)
  | case7 links spot s hidle hup hgone hfits place hnode hslash =>
    cases h
    exact .absent ⟨hidle, hup, hslash, not_not.1 hgone, Nat.le_of_not_lt hfits⟩ hnode
  | case9 links spot s rest hidle hup hslash hgone hfits place entries hnode ih =>
    exact .directory ⟨hidle, hup, hslash, not_not.1 hgone, Nat.le_of_not_lt hfits⟩ hnode (ih h)
  | case10 links spot s hidle hup hgone hfits place bytes hnode hslash =>
    cases h
    exact .file ⟨hidle, hup, hslash, not_not.1 hgone, Nat.le_of_not_lt hfits⟩ hnode
  | case13 spot s rest hidle hup hslash hgone hfits place path hnode links start ih =>
    exact .link ⟨hidle, hup, hslash, not_not.1 hgone, Nat.le_of_not_lt hfits⟩ hnode (ih h)
  | _ => cases h

theorem Passes.walk_cons (hs : Passes purpose spot s rest) :
    walk root purpose links spot (s :: rest) =
      match root.get? (spot.place ++ [s]) with
      | none => if rest = [] then .ok (.absent spot.place s) else .error .notFound
      | some (.directory _) => walk root purpose links { place := spot.place ++ [s] } rest
      | some (.file _) =>
        if rest = [] then .ok (.found { place := spot.place ++ [s] }) else .error .notDirectory
      | some (.link path) =>
        match links with
        | 0 => .error .tooManyLinks
        | links + 1 =>
          walk root purpose links (if path.isAbsolute then { place := [] } else spot)
            (path.chars.splitOn '/' ++ rest) := by
  rw [walk]
  exact (if_neg hs.not_idle).trans <| (if_neg hs.not_up).trans <| (if_neg hs.not_slashes).trans <|
    (if_neg (not_not.2 hs.not_gone)).trans <| if_neg (Nat.not_lt_of_le hs.fits)

theorem Leads.walk_eq (h : Leads root purpose links spot steps target) :
    walk root purpose links spot steps = .ok target := by
  induction h with
  | here => rw [walk]
  | idle hs h ih => rw [walk, if_pos hs, ih]
  | up h ih => rw [walk, if_neg (by decide), if_pos rfl, ih]
  | absent hs hnode => rw [hs.walk_cons, hnode, if_pos rfl]
  | file hs hnode => rw [hs.walk_cons, hnode]; exact if_pos rfl
  | directory hs hnode h ih => rw [hs.walk_cons, hnode]; exact ih
  | link hs hnode h ih => rw [hs.walk_cons, hnode]; exact ih

/-- A walk arrives exactly as the rules say. -/
theorem walk_eq_ok_iff :
    walk root purpose links spot steps = .ok target ↔
      Leads root purpose links spot steps target :=
  ⟨leads_of_walk, Leads.walk_eq⟩

/-- What is in the files plays no part. -/
theorem walk_mapFiles (f : Place → ByteArray → ByteArray) (root : Node) (purpose : Purpose)
    (links : Nat) (spot : Spot) (steps : List Segment) :
    walk (root.mapFiles f) purpose links spot steps = walk root purpose links spot steps := by
  -- a step asks whether there is a file, a directory or a link, and that stays
  fun_induction walk root purpose links spot steps <;> rw [walk] <;>
    grind [Node.get?_mapFiles, Node.mapFiles]

/-! ## Going on -/

/-- When one looks, a slash further on does not matter to a name. -/
theorem Passes.look (hs : Passes .look spot s rest) (more : List Segment) :
    Passes .look spot s more :=
  ⟨hs.not_idle, hs.not_up, by simp, hs.not_gone, hs.fits⟩

/-- A walk that arrives at a directory goes on from there. -/
theorem Leads.append (h : Leads root .look links spot steps (.found dir))
    (hdir : ∀ bytes, root.get? dir.place ≠ some (.file bytes)) (more : List Segment) :
    ∃ left, walk root .look links spot (steps ++ more) = walk root .look left dir more := by
  generalize ht : Target.found dir = target at h
  induction h with
  | here =>
    cases ht
    exact ⟨_, rfl⟩
  | idle hs h ih =>
    rw [List.cons_append, walk, if_pos hs]
    exact ih ht
  | up h ih =>
    rw [List.cons_append, walk, if_neg (by decide), if_pos rfl]
    exact ih ht
  | absent hs hnode => cases ht
  | file hs hnode =>
    cases ht
    exact absurd hnode (hdir _)
  | directory hs hnode h ih =>
    rw [List.cons_append, (hs.look _).walk_cons, hnode]
    exact ih ht
  | link hs hnode h ih =>
    rw [List.cons_append, (hs.look _).walk_cons, hnode]
    dsimp only
    rw [← List.append_assoc]
    exact ih ht

/-- A slash at the end makes no difference where something is found behind it. -/
theorem Leads.of_slash (h : Leads root .look links spot (steps ++ [[]]) target) :
    Leads root .look links spot steps target := by
  generalize ht : steps ++ [[]] = whole at h
  induction h generalizing steps with
  | here => simp at ht
  | idle hs h ih =>
    cases steps with
    | nil =>
      cases ht
      exact h
    | cons s steps =>
      cases ht
      exact .idle hs (ih rfl)
  | up h ih =>
    cases steps with
    | nil => cases ht
    | cons s steps =>
      cases ht
      exact .up (ih rfl)
  | absent hs hnode | file hs hnode =>
    cases steps with
    | nil =>
      cases ht
      exact absurd rfl hs.not_idle
    | cons s steps => simp at ht
  | directory hs hnode h ih =>
    cases steps with
    | nil =>
      cases ht
      exact absurd rfl hs.not_idle
    | cons s steps =>
      cases ht
      exact .directory (hs.look _) hnode (ih rfl)
  | link hs hnode h ih =>
    cases steps with
    | nil =>
      cases ht
      exact absurd rfl hs.not_idle
    | cons s steps =>
      cases ht
      exact .link (hs.look _) hnode (ih (List.append_assoc _ _ _))

theorem not_isIdle_of_isName (hs : IsName s) : ¬Path.isIdle s = true := by
  obtain ⟨h1, h2, -⟩ := isPlainSegment_iff.1 hs.plain
  simp [Path.isIdle, h1, h2]

/-- Names lead to the file that stands below a place. -/
theorem Leads.eq_of_names {names : List Segment} {place : Place} {bytes : ByteArray}
    (hnames : ∀ s ∈ names, IsName s) (hnode : root.get? (place ++ names) = some (.file bytes))
    (h : Leads root .look links { place } names target) :
    target = .found { place := place ++ names } := by
  induction names generalizing place with
  | nil =>
    cases h
    rw [List.append_nil]
  | cons s names ih =>
    have hs := hnames s List.mem_cons_self
    have hget := hnode
    rw [List.append_cons, Node.get?_append] at hget
    cases h with
    | idle hidle => exact absurd hidle (not_isIdle_of_isName hs)
    | up => exact absurd rfl (isPlainSegment_iff.1 hs.plain).2.2
    | absent _ hnone =>
      rw [hnone] at hget
      cases hget
    | file => rfl
    | directory _ _ h =>
      rw [List.append_cons] at hnode
      rw [List.append_cons]
      exact ih (fun t ht => hnames t (List.mem_cons_of_mem _ ht)) hnode h
    | link _ hlink =>
      rw [hlink] at hget
      cases names <;> cases hget

/-! ## Looking and writing -/

/-- One stands in a directory, or below one that is left when others were removed. -/
def StandsIn (root : Node) (spot : Spot) : Prop :=
  ∃ entries, root.get? spot.place = some (.directory entries)

theorem standsIn_root (hroot : root.isDirectory = true) : StandsIn root { place := [] } := by
  cases root with
  | file bytes => cases hroot
  | link path => cases hroot
  | directory entries => exact ⟨entries, rfl⟩

theorem StandsIn.up (hroot : root.isDirectory = true) (h : StandsIn root spot) :
    StandsIn root spot.up := by
  obtain ⟨entries, he⟩ := h
  rw [Spot.up]
  split
  · exact Node.isDirectory_dropLast hroot he
  · exact ⟨entries, he⟩

theorem StandsIn.start (hroot : root.isDirectory = true) (h : StandsIn root spot) (path : Path) :
    StandsIn root (if path.isAbsolute then { place := [] } else spot) := by
  split
  · exact standsIn_root hroot
  · exact h

/-- No name stands at the end of some steps. -/
def EndsBare (steps : List Segment) : Prop := ∀ s ∈ steps.getLast?, s = []

theorem EndsBare.tail (h : EndsBare (s :: rest)) : EndsBare rest := by
  cases rest with
  | nil => exact fun _ ht => nomatch ht
  | cons t rest => exact h

theorem Passes.ne_nil (hs : Passes purpose spot s rest) (h : EndsBare (s :: rest)) : rest ≠ [] := by
  rintro rfl
  have hnil : s = [] := h s rfl
  exact hs.not_idle (by rw [hnil]; rfl)

theorem endsBare_of_isSlashes (h : isSlashes rest = true) : EndsBare (s :: rest) := by
  rw [isSlashes, Bool.and_eq_true, List.all_eq_true] at h
  intro t ht
  rw [List.getLast?_cons_of_ne_nil (by simpa using h.1)] at ht
  exact List.isEmpty_iff.1 (h.2 t (List.mem_of_getLast? ht))

/-- Where no name stands at the end, only a directory is found. -/
theorem Leads.standsIn (hroot : root.isDirectory = true) (hspot : StandsIn root spot)
    (h : Leads root .look links spot steps (.found dir)) (hbare : EndsBare steps) :
    StandsIn root dir := by
  generalize ht : Target.found dir = target at h
  induction h with
  | here =>
    cases ht
    exact hspot
  | idle hs h ih => exact ih hspot hbare.tail ht
  | up h ih => exact ih (hspot.up hroot) hbare.tail ht
  | absent hs hnode | file hs hnode => exact absurd rfl (hs.ne_nil hbare)
  | directory hs hnode h ih => exact ih ⟨_, hnode⟩ hbare.tail ht
  | link hs hnode h ih =>
    refine ih (hspot.start hroot _) ?_ ht
    rw [EndsBare, List.getLast?_append_of_ne_nil _ (hs.ne_nil hbare)]
    exact hbare.tail

/-- On the way to a file, no name has nothing but slashes after it. -/
theorem Passes.write (hroot : root.isDirectory = true) (hspot : StandsIn root spot)
    (hs : Passes .look spot s rest) (h : Leads root .look links spot (s :: rest) (.found dir))
    (hdir : ¬StandsIn root dir) : Passes .write spot s rest := by
  refine ⟨hs.not_idle, hs.not_up, ?_, hs.not_gone, hs.fits⟩
  rintro ⟨-, hslashes⟩
  exact hdir (h.standsIn hroot hspot (endsBare_of_isSlashes hslashes))

/-- A path that leads to a file when one looks leads there too when one writes. -/
theorem Leads.write (hroot : root.isDirectory = true) (hspot : StandsIn root spot)
    (h : Leads root .look links spot steps (.found dir)) (hdir : ¬StandsIn root dir) :
    Leads root .write links spot steps (.found dir) := by
  generalize ht : Target.found dir = target at h
  induction h with
  | here => exact .here
  | idle hs h ih => exact .idle hs (ih hspot ht)
  | up h ih => exact .up (ih (hspot.up hroot) ht)
  | absent hs hnode => cases ht
  | @file links spot s bytes hs hnode =>
    have hfile : Leads root .look links spot [s] (.found dir) := ht ▸ .file hs hnode
    exact .file (hs.write hroot hspot hfile hdir) hnode
  | directory hs hnode h ih =>
    subst ht
    exact .directory (hs.write hroot hspot (.directory hs hnode h) hdir) hnode
      (ih ⟨_, hnode⟩ rfl)
  | link hs hnode h ih =>
    subst ht
    exact .link (hs.write hroot hspot (.link hs hnode h) hdir) hnode
      (ih (hspot.start hroot _) rfl)

/-- A path that leads somewhere when one writes leads there too when one looks. -/
theorem Leads.look (h : Leads root .write links spot steps target) :
    Leads root .look links spot steps target := by
  have hlook {spot : Spot} {s : Segment} {rest : List Segment} (hs : Passes .write spot s rest) :
      Passes .look spot s rest :=
    ⟨hs.not_idle, hs.not_up, fun hwrite => (nomatch hwrite.1), hs.not_gone, hs.fits⟩
  induction h with
  | here => exact .here
  | idle hs h ih => exact .idle hs ih
  | up h ih => exact .up ih
  | absent hs hnode => exact .absent (hlook hs) hnode
  | file hs hnode => exact .file (hlook hs) hnode
  | directory hs hnode h ih => exact .directory (hlook hs) hnode ih
  | link hs hnode h ih => exact .link (hlook hs) hnode ih

end ImportPaths.Disk
