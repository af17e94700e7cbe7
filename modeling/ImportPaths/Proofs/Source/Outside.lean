import ImportPaths.Proofs.Run.Collected
import ImportPaths.Proofs.Source.Carried
import ImportPaths.Proofs.Source.Counts
import ImportPaths.Proofs.Specifier.Accepted

/-!
# Files outside the project

A specifier is made alias-rooted for the place that it names, wherever the file stands.  So a pass
finds something to replace in a file exactly when one of its statements names a place below the
project root (`replaced_toAlias_eq_zero_iff`), and there is such a statement for every directory
from which the project root can be named at all: the names that lead down to it, from where the two
part, must fit between quotes (`exists_replaced_toAlias_iff`).

That the scan root does not lie in the project is therefore not enough to say that nothing below it
can become alias-rooted (`toAlias_outside_iff`).
-/

namespace ImportPaths

open ImportPaths.Path

/-! ## What is not shared -/

/-- The two lists may change places. -/
theorem dropCommon_comm (as bs : List Component) : dropCommon bs as = (dropCommon as bs).swap := by
  fun_induction dropCommon as bs with
  | case1 as a bs ih => rw [dropCommon, if_pos rfl, ih]
  | case2 a as b bs hab => rw [dropCommon, if_neg (Ne.symm hab)]; rfl
  | case3 as bs hnot =>
    cases as with
    | nil => cases bs <;> rfl
    | cons a as =>
      cases bs with
      | nil => rfl
      | cons b bs => exact absurd rfl (hnot a as b bs rfl)

/-- Below a place that is not on the way to the target, one parts from the target at the same
place. -/
theorem dropCommon_append_right {as bs : List Component} (h : ¬bs <+: as) (ys : List Component) :
    (dropCommon as (bs ++ ys)).1 = (dropCommon as bs).1 := by
  have hne : (dropCommon bs as).1 ≠ [] := by
    intro hnil
    obtain ⟨cs, hbs, has⟩ := exists_dropCommon bs as
    rw [hnil, List.append_nil] at hbs
    exact h ⟨_, by rw [hbs, ← has]⟩
  rw [dropCommon_comm, dropCommon_append, if_neg hne, dropCommon_comm as bs]
  rfl

theorem dropCommon_self_append (as bs : List Component) : dropCommon as (as ++ bs) = ([], bs) := by
  simpa [dropCommon] using dropCommon_append_append as [] bs

/-- The names that lead down to the root, from where it and the directory part, are written in every
specifier that leads below the root. -/
theorem subset_of_stepsTo? {dir root : Path} {own names down : List Segment} {m n : Nat}
    (hd : dir.isAbsolute = true) (hsteps : stepsTo? root dir.clean = some (m, down))
    (h : collapse (dir.components ++ List.replicate n .up) ++ own.map .name =
      root.components ++ names.map .name) : down ⊆ own := by
  obtain ⟨back, hdrop, -⟩ := stepsTo?_eq_some_iff.1 hsteps
  obtain ⟨front, behind, -, hclean, hup⟩ := collapse_up_of_isAbsolute hd n
  rw [hclean, List.map_append, ← List.cons_append] at hdrop
  rw [hup] at h
  rcases List.append_eq_append_iff.1 h with ⟨cs, hroot, hown⟩ | ⟨cs, hfront, -⟩
  · -- the climb ends on the way to the root, and the rest of this way is written out
    rw [hroot, dropCommon_append_append] at hdrop
    obtain ⟨ds, hcs, -⟩ := exists_dropCommon cs (behind.map .name)
    rw [hdrop] at hcs
    intro t ht
    have hmem : Component.name t ∈ own.map .name := by
      rw [hown, hcs]
      simp [ht]
    simpa using hmem
  · -- the climb ends in the root, and so the directory lies there itself
    rw [hfront, List.append_assoc, dropCommon_self_append] at hdrop
    obtain rfl : down = [] := by simpa using (Prod.mk.inj hdrop).1.symm
    exact List.nil_subset own

namespace Settings

variable {s : Settings} {d : Direction} {dir path : Path} {i : Import} {text : List Char}
variable {names : List Segment}

/-! ## What a pass to the alias root replaces -/

/-- A pass replaces nothing exactly when no statement gets another specifier. -/
theorem replaced_eq_zero_iff :
    (s.pass d path text).replaced = 0 ↔
      ∀ l ∈ statements s.token text, ¬∃ body, s.judge d path.directory l.statement =
        .replaced body := by
  have hmem (i : Import) : .statement i ∈ Piece.pieces s.token text ↔
      ∃ l ∈ statements s.token text, l.statement = i := by
    rw [← Piece.mem_filterMap_statement?, ← map_statement_statements, List.mem_map]
  rw [pass]
  dsimp only
  rw [List.countP_eq_zero]
  constructor
  · intro h l hl
    exact mt replaces_iff.2 (h _ ((hmem _).2 ⟨l, hl, rfl⟩))
  · intro h p hp
    cases p with
    | plain c => exact Bool.false_ne_true
    | statement i =>
      obtain ⟨l, hl, rfl⟩ := (hmem i).1 hp
      exact mt replaces_iff.1 (h l hl)

theorem exists_judge_toAlias_iff (ht : AliasToken.Valid s.token) (hi : i.Legal s.token) :
    (∃ body, s.judge .toAlias dir i = .replaced body) ↔
      i.form.isRelative = true ∧ (aliasSubpath? dir i.body s.projectRoot).isSome = true := by
  constructor
  · rintro ⟨body, h⟩
    obtain ⟨hrel, hother, -⟩ := judge_eq_replaced_iff.1 h
    rw [otherForm?_of_isRelative hrel] at hother
    obtain ⟨subpath, hsub, -⟩ := Option.map_eq_some_iff.1 hother
    exact ⟨hrel, Option.isSome_iff_exists.2 ⟨subpath, hsub⟩⟩
  · rintro ⟨hrel, hsome⟩
    obtain ⟨subpath, hsub⟩ := Option.isSome_iff_exists.1 hsome
    have hother : s.otherForm? dir i = some (s.token ++ '/' :: subpath) := by
      rw [otherForm?_of_isRelative hrel, hsub, Option.map_some]
    exact ⟨_, judge_eq_replaced_iff.2 ⟨hrel, hother, (startApart_of_otherForm? ht hi hother).ne⟩⟩

/-- A pass to the alias root replaces nothing exactly when no statement names a place below the
project root. -/
theorem replaced_toAlias_eq_zero_iff (ht : AliasToken.Valid s.token)
    (hd : path.directory.isAbsolute = true) (hr : s.projectRoot.isAbsolute = true) :
    (s.pass .toAlias path text).replaced = 0 ↔
      ∀ l ∈ statementsFor s.token .toAlias text, IsTranslatable l.statement.body →
        ¬(resolveRelative path.directory l.statement.body).IsBelow s.projectRoot := by
  rw [replaced_eq_zero_iff]
  simp only [statementsFor, List.mem_filter, and_imp]
  refine forall₂_congr fun l hl => ?_
  rw [exists_judge_toAlias_iff ht (legal_of_mem_statements hl), aliasSubpath?_isSome_iff hd hr]
  simp only [not_and]
  rfl

/-! ## Directories from which the project root can be named -/

theorem carried_toRelative {down back : List Segment}
    (h : dropCommon s.projectRoot.components dir.clean.components =
      (down.map .name, back.map .name)) : s.carried dir .toRelative = down := by
  rw [carried, stepsTo?_eq_some_iff.2 ⟨back, h, rfl⟩]
  rfl

/-- Between two absolute paths there are names only. -/
theorem exists_dropCommon_clean (hd : dir.isAbsolute = true) (hr : s.projectRoot.isAbsolute = true)
    (hc : s.projectRoot.IsClean) : ∃ down back : List Segment,
      dropCommon s.projectRoot.components dir.clean.components =
        (down.map .name, back.map .name) := by
  obtain ⟨rootNames, hroot⟩ := exists_components_clean_eq hr
  obtain ⟨dirNames, hdir⟩ := exists_components_clean_eq hd
  obtain ⟨down, back, -, hdrop⟩ := dropCommon_names rootNames dirNames
  exact ⟨down, back, by rw [← hc, hroot, hdir, dropCommon, if_pos rfl, hdrop]⟩

/-- From a directory some statement is made alias-rooted exactly when the names that lead down to
the project root, from where the two part, fit between quotes. -/
theorem exists_replaced_toAlias_iff (ht : AliasToken.Valid s.token) (hd : dir.isAbsolute = true)
    (hr : s.projectRoot.isAbsolute = true) (hc : s.projectRoot.IsClean) :
    (∃ i, i.Legal s.token ∧ ∃ body, s.judge .toAlias dir i = .replaced body) ↔
      ∀ name ∈ s.carried dir .toRelative, ∀ c ∈ name, isBodyChar c = true := by
  constructor
  · rintro ⟨i, hi, hjudge⟩ name hname c hc
    obtain ⟨hrel, hsome⟩ := (exists_judge_toAlias_iff ht hi).1 hjudge
    obtain ⟨subpath, hsub⟩ := Option.isSome_iff_exists.1 hsome
    obtain ⟨n, own, names, hbody, -, hplace⟩ := exists_climb_of_aliasSubpath? hi.form_eq hrel hsub
    obtain ⟨m, down, hsteps, hdown⟩ := mem_carried_toRelative.1 hname
    have hown := subset_of_stepsTo? hd hsteps hplace hdown
    refine hi.body_chars c ?_
    rw [hbody]
    exact List.mem_append_right _ (mem_joinSegments_of_mem hown hc)
  · intro h
    have hplain : isPlainSubpath ['x'] = true := by decide
    obtain ⟨relative, hx⟩ := Option.isSome_iff_exists.1
      ((relativeSpecifier?_isSome_iff hd hr hc).2 hplain)
    have hsub := aliasSubpath?_of_relativeSpecifier? hx
    obtain ⟨n, names, rfl, hnames⟩ := name_of_relativeSpecifier? hx
    have hwritten : ∀ t ∈ names, (∀ c ∈ t, isBodyChar c = true) ∨ t ∈ s.carried dir .toRelative := by
      intro t ht
      refine (hnames t ht).imp (fun hown c hc => ?_) mem_carried_toRelative.2
      obtain rfl := List.mem_singleton.1 (hown hc)
      rfl
    have hchars : ∀ c ∈ climb n ++ joinSegments names, isBodyChar c = true := by
      intro c hc
      rcases List.mem_append.1 hc with hc | hc
      · exact isBodyChar_climb n hc
      · rcases isBodyChar_or_mem hwritten hc with hgood | ⟨name, hname, hmem⟩
        · exact hgood
        · exact h name hname c hmem
    obtain ⟨form, hread, hrel⟩ := Form.ofBody?_climb ht n (joinSegments names)
    have hne : climb n ++ joinSegments names ≠ [] := by
      obtain ⟨t, hclimb⟩ := climb_eq_cons n
      rw [hclimb]
      exact List.cons_ne_nil _ _
    obtain ⟨i, hi, hbody, rfl⟩ := Import.exists_legal hne hchars hread
    refine ⟨i, hi, (exists_judge_toAlias_iff ht hi).2 ⟨hrel, ?_⟩⟩
    rw [hbody, hsub, Option.isSome_some]

/-- In a file nothing can become alias-rooted, whatever its text, exactly when one of these names
does not fit between quotes. -/
theorem forall_replaced_toAlias_iff (ht : AliasToken.Valid s.token)
    (hd : path.directory.isAbsolute = true) (hr : s.projectRoot.isAbsolute = true)
    (hc : s.projectRoot.IsClean) :
    (∀ text, (s.pass .toAlias path text).replaced = 0) ↔
      ∃ name ∈ s.carried path.directory .toRelative, ∃ c ∈ name, isBodyChar c = false := by
  have hall := not_congr (exists_replaced_toAlias_iff ht hd hr hc)
  simp only [not_forall, Bool.not_eq_true, exists_prop] at hall
  rw [← hall]
  simp only [replaced_eq_zero_iff, not_exists, not_and]
  constructor
  · intro h i hi
    have hone := map_statement_statements_text hi
    obtain ⟨l, hl, rfl⟩ := List.mem_map.1 (hone ▸ List.mem_singleton_self i)
    exact h _ l hl
  · intro h text l hl
    exact h l.statement (legal_of_mem_statements hl)

/-! ## The files below the scan root -/

/-- Both roots are absolute and clean. -/
structure IsAnchored (s : Settings) : Prop where
  scan_absolute : s.scanRoot.isAbsolute = true
  scan_clean : s.scanRoot.IsClean
  root_absolute : s.projectRoot.isAbsolute = true
  root_clean : s.projectRoot.IsClean

theorem isAnchored_anchored (s : Settings) {cwd : Path} (hcwd : cwd.isAbsolute = true) :
    (s.anchored cwd).IsAnchored :=
  ⟨isAbsolute_anchor _ hcwd, isClean_anchor _ _, isAbsolute_anchor _ hcwd, isClean_anchor _ _⟩

/-- The directory of a file below the scan root is clean, but for its text. -/
theorem IsAnchored.directory_joinNames (h : s.IsAnchored) (hne : names ≠ [])
    (hnames : ∀ t ∈ names, IsName t) :
    (s.scanRoot.joinNames names).directory.isAbsolute = true ∧
      (s.scanRoot.joinNames names).directory.clean.components =
        s.scanRoot.components ++ names.dropLast.map .name := by
  have hdirectory := components_directory_of_append h.scan_absolute (by simpa using hne)
    (components_joinNames (chars_ne_nil_of_isAbsolute h.scan_absolute) hnames)
  rw [← List.map_dropLast] at hdirectory
  have habs : (s.scanRoot.joinNames names).directory.isAbsolute = true := by
    rw [isAbsolute_iff, hdirectory]
    exact List.mem_append_left _ (isAbsolute_iff.1 h.scan_absolute)
  refine ⟨habs, ?_⟩
  rw [components_clean_of_isAbsolute habs, hdirectory, collapse_append_names,
    ← components_clean_of_isAbsolute h.scan_absolute, h.scan_clean]

/-- What such a file says is decided by the place of its directory. -/
theorem IsAnchored.forall_replaced_iff (h : s.IsAnchored) (ht : AliasToken.Valid s.token)
    (hne : names ≠ []) (hnames : ∀ t ∈ names, IsName t) {down back : List Segment}
    (hdrop : dropCommon s.projectRoot.components
      (s.scanRoot.components ++ names.dropLast.map .name) = (down.map .name, back.map .name)) :
    (∀ text, (s.pass .toAlias (s.scanRoot.joinNames names) text).replaced = 0) ↔
      ∃ name ∈ down, ∃ c ∈ name, isBodyChar c = false := by
  obtain ⟨habs, hclean⟩ := h.directory_joinNames hne hnames
  rw [forall_replaced_toAlias_iff ht habs h.root_absolute h.root_clean,
    carried_toRelative (hclean ▸ hdrop)]

/-- In a file right in the project root some statement can become alias-rooted. -/
theorem IsAnchored.not_forall_in_project (h : s.IsAnchored) (ht : AliasToken.Valid s.token)
    {down : List Segment}
    (hroot : s.scanRoot.components ++ down.map .name = s.projectRoot.components) :
    (∀ t ∈ down ++ [['x']], IsName t) ∧
      ¬∀ text, (s.pass .toAlias (s.scanRoot.joinNames (down ++ [['x']])) text).replaced = 0 := by
  have hnames : ∀ t ∈ down ++ [['x']], IsName t := by
    simpa [or_imp, forall_and] using And.intro (isName_of_components_eq hroot.symm) isName_x
  have hdrop : dropCommon s.projectRoot.components (s.scanRoot.components ++
      (down ++ [['x']]).dropLast.map .name) =
        (([] : List Segment).map .name, ([] : List Segment).map .name) := by
    simpa [hroot] using dropCommon_self_append s.projectRoot.components []
  refine ⟨hnames, fun hall => ?_⟩
  obtain ⟨name, hname, -⟩ := (h.forall_replaced_iff ht (by simp) hnames hdrop).1 hall
  exact List.not_mem_nil hname

/-- Nothing below the scan root can become alias-rooted exactly when neither root lies in the other
and the way down to the project root cannot be written between quotes. -/
theorem IsAnchored.forall_below_iff (h : s.IsAnchored) (ht : AliasToken.Valid s.token) :
    (∀ names, names ≠ [] → (∀ t ∈ names, IsName t) → ∀ text,
      (s.pass .toAlias (s.scanRoot.joinNames names) text).replaced = 0) ↔
    s.isOutsideProject = true ∧ s.projectRoot.startsWith s.scanRoot = false ∧
      ∃ name ∈ s.carried s.scanRoot .toRelative, ∃ c ∈ name, isBodyChar c = false := by
  obtain ⟨down, back, hdrop⟩ :=
    exists_dropCommon_clean h.scan_absolute h.root_absolute h.root_clean
  rw [carried_toRelative hdrop, isOutsideProject, Bool.not_eq_true', ← Bool.not_eq_true,
    ← Bool.not_eq_true, startsWith, startsWith, List.isPrefixOf_iff_prefix,
    List.isPrefixOf_iff_prefix]
  rw [h.scan_clean] at hdrop
  constructor
  · intro hall
    -- a file right in the scan root
    have hx : ∀ t ∈ [['x']], IsName t := List.forall_mem_singleton.2 isName_x
    have hhere : dropCommon s.projectRoot.components (s.scanRoot.components ++
        [['x']].dropLast.map .name) = (down.map .name, back.map .name) := by
      simpa using hdrop
    have hbad : ∃ name ∈ down, ∃ c ∈ name, isBodyChar c = false :=
      (h.forall_replaced_iff ht (by simp) hx hhere).1 (hall _ (by simp) hx)
    refine ⟨?_, ?_, hbad⟩
    · rintro ⟨below, hbelow⟩
      rw [← hbelow, dropCommon_self_append] at hdrop
      obtain rfl : down = [] := by simpa using (Prod.mk.inj hdrop).1.symm
      obtain ⟨name, hname, -⟩ := hbad
      exact List.not_mem_nil hname
    · rintro ⟨below, hbelow⟩
      rw [← hbelow, dropCommon_comm, dropCommon_self_append] at hdrop
      obtain rfl : below = down.map .name := (Prod.mk.inj hdrop).1
      obtain ⟨hnames, hnot⟩ := h.not_forall_in_project ht hbelow
      exact hnot (hall _ (by simp) hnames)
  · rintro ⟨-, hapart, hbad⟩ names hne hnames
    have hsame := dropCommon_append_right hapart (names.dropLast.map .name)
    obtain ⟨habs, hclean⟩ := h.directory_joinNames hne hnames
    obtain ⟨down', back', hdrop'⟩ := exists_dropCommon_clean habs h.root_absolute h.root_clean
    rw [hclean] at hdrop'
    rw [hdrop', hdrop] at hsame
    obtain rfl : down' = down := Component.map_name_inj.1 hsame
    exact (h.forall_replaced_iff ht hne hnames hdrop').2 hbad

/-- Of a file below the scan root nothing becomes alias-rooted exactly when none of its relative
specifiers names a place below the project root; and whatever the files of a run say, nothing in
them does, exactly when neither root lies in the other and the way down to the project root holds a
name that does not fit between quotes. -/
theorem toAlias_outside_iff (s : Settings) (cwd : Path) (hcwd : cwd.isAbsolute = true)
    (hs : (s.anchored cwd).check = .ok ()) :
    let s := s.anchored cwd
    (∀ path text, path.IsBelow s.scanRoot →
      ((s.pass .toAlias path text).replaced = 0 ↔
        ∀ l ∈ statementsFor s.token .toAlias text, IsTranslatable l.statement.body →
          ¬(resolveRelative path.directory l.statement.body).IsBelow s.projectRoot)) ∧
    ((∀ names, names ≠ [] → (∀ t ∈ names, IsName t) → ∀ text,
        (s.pass .toAlias (s.scanRoot.joinNames names) text).replaced = 0) ↔
      s.isOutsideProject = true ∧ s.projectRoot.startsWith s.scanRoot = false ∧
        ∃ name ∈ s.carried s.scanRoot .toRelative, ∃ c ∈ name, isBodyChar c = false) := by
  have hv := valid_of_check hs
  have hroots := s.isAnchored_anchored hcwd
  refine ⟨fun path text hpath => ?_, hroots.forall_below_iff hv⟩
  exact replaced_toAlias_eq_zero_iff hv (hpath.isAbsolute_directory hroots.scan_absolute)
    hroots.root_absolute

/-- A project root that no specifier can hold is out of reach from everywhere else. -/
theorem toAlias_outside_iff_unquotable :
    let cwd := Path.ofString "/"
    let s : Settings := { scanRoot := .ofString "q", projectRoot := .ofString "it's" }
    cwd.isAbsolute = true ∧ (s.anchored cwd).check = .ok () ∧
      ∀ names, names ≠ [] → (∀ t ∈ names, IsName t) → ∀ text,
        ((s.anchored cwd).pass .toAlias ((s.anchored cwd).scanRoot.joinNames names) text).replaced
          = 0 :=
  ⟨by decide, by decide, (toAlias_outside_iff _ _ (by decide) (by decide)).2.2
    ⟨by decide, by decide, "it's".toList, by decide, '\'', by decide, by decide⟩⟩

/-- So a scan root beside the project is no reason to replace nothing: a relative specifier that
leads into the project becomes alias-rooted there as well. -/
theorem replaced_outside_project :
    let s := anchored { scanRoot := .ofString "/q", projectRoot := .ofString "/p" } (.ofString "/")
    let path := Path.ofString "/q/x.ts"
    let i : Import := ⟨.sideEffect, [' '], .double, "../p/y".toList, .relativeUp 1 "p/y".toList⟩
    s.check = .ok () ∧ s.isOutsideProject = true ∧ path.IsBelow s.scanRoot ∧
      (s.pass .toAlias path i.text).replaced = 1 ∧
      (s.pass .toAlias path i.text).content = "import \"@/y\"".toList := by
  intro s path i
  have hi : i.Legal s.token := by decide
  have hpieces := Piece.pieces_text hi
  refine ⟨by decide, by decide, by decide, ?_, ?_⟩
  · rw [pass, hpieces]
    decide
  · rw [pass, hpieces]
    decide

end Settings

end ImportPaths
