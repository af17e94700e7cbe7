import ImportPaths.Proofs.Source.Carried
import ImportPaths.Proofs.Specifier.RoundTrip

/-!
# To the alias root and back

A specifier that a pass made alias-rooted should become relative again in a pass the other way.  The
translations alone would do it, for they undo each other; but the pass refuses a subpath that starts
with the token and a slash, and the pass to the alias root writes such subpaths all the same.  It
does so for the places below one directory: the one of the project root that is named like the
token (`isBelow_tokenDirectory_iff`).  Every other specifier comes back (`toRelative_toAlias_iff`).
-/

namespace ImportPaths

open ImportPaths.Path

/-- A valid token is one plain segment. -/
theorem AliasToken.Valid.isName {token : List Char} (h : AliasToken.Valid token) :
    IsName token := by
  obtain ⟨hne, hdot, hchars⟩ := h
  refine ⟨isPlainSegment_iff.2 ⟨hne, ?_, ?_⟩, ?_⟩
  · rintro rfl
    exact hdot rfl
  · rintro rfl
    exact hdot rfl
  · intro hslash
    exact absurd (hchars '/' hslash).1 (by decide)

/-- Names that are written with slashes start with one more name and a slash when this name is the
first of several. -/
theorem name_slash_prefix_iff {s : Segment} {names : List Segment} (hs : IsName s)
    (hnames : ∀ t ∈ names, IsName t) :
    s ++ ['/'] <+: joinSegments names ↔ ∃ more, more ≠ [] ∧ names = s :: more := by
  constructor
  · rintro ⟨u, hu⟩
    rw [List.append_assoc, List.singleton_append] at hu
    have hslash : '/' ∈ joinSegments names := by simp [← hu]
    cases names with
    | nil => cases hslash
    | cons t more =>
      have ht := (hnames t List.mem_cons_self).no_slash
      by_cases hmore : more = []
      · subst hmore
        rw [joinSegments, List.intercalate_singleton] at hslash
        exact absurd hslash ht
      · refine ⟨more, hmore, ?_⟩
        rw [joinSegments, List.intercalate_cons_of_ne_nil hmore, List.append_assoc,
          List.singleton_append] at hu
        -- both texts are the same up to their first slash
        have htake := congrArg (List.takeWhile (· != '/')) hu
        rw [Import.takeWhile_append_cons (by intro c hc; simp; rintro rfl; exact hs.no_slash hc)
            rfl,
          Import.takeWhile_append_cons (by intro c hc; simp; rintro rfl; exact ht hc) rfl] at htake
        rw [htake]
  · rintro ⟨more, hmore, rfl⟩
    rw [joinSegments, List.intercalate_cons_of_ne_nil hmore]
    exact List.prefix_append _ _

namespace Settings

variable {s : Settings} {dir path : Path} {i j : Import} {body subpath text : List Char}

/-- The directory of the project root that is named like the token. -/
def tokenDirectory (s : Settings) : Path := s.projectRoot.join ⟨s.token⟩

theorem components_tokenDirectory (ht : AliasToken.Valid s.token)
    (hr : s.projectRoot.isAbsolute = true) :
    s.tokenDirectory.components = s.projectRoot.components ++ [.name s.token] := by
  have hnames : ∀ t ∈ [s.token], IsName t := by simpa using ht.isName
  have hjoin : joinSegments [s.token] = s.token := List.intercalate_singleton
  have habs := isAbsolute_joinSegments hnames
  have hsteps := steps_joinSegments_names hnames
  rw [hjoin] at habs hsteps
  rw [tokenDirectory, components_join (chars_ne_nil_of_isAbsolute hr) habs, hsteps,
    List.map_singleton]

/-- The subpaths that start with the token and a slash are those of the places below the directory
that is named like the token. -/
theorem isBelow_tokenDirectory_iff {relative : List Char} (ht : AliasToken.Valid s.token)
    (hr : s.projectRoot.isAbsolute = true)
    (h : aliasSubpath? dir relative s.projectRoot = some subpath) :
    (resolveRelative dir relative).IsBelow s.tokenDirectory ↔ s.token ++ ['/'] <+: subpath := by
  obtain ⟨-, names, -, hplace, rfl⟩ := aliasSubpath?_eq_some_iff.1 h
  rw [name_slash_prefix_iff ht.isName (isName_of_components_eq hplace), IsBelow, hplace,
    components_tokenDirectory ht hr, List.prefix_append_right_inj, ne_eq,
    List.append_cancel_left_eq]
  cases names with
  | nil => simp
  | cons t more =>
    simp only [List.map_cons, List.cons_prefix_cons, List.nil_prefix, and_true, List.cons.injEq,
      Component.name.injEq, List.map_eq_nil_iff]
    constructor
    · rintro ⟨rfl, hne⟩
      exact ⟨more, fun hmore => hne ⟨rfl, hmore⟩, rfl, rfl⟩
    · rintro ⟨_, hmore, rfl, rfl⟩
      exact ⟨rfl, fun hnil => hmore hnil.2⟩

/-! ## One statement -/

/-- What a statement `i` of a file in `dir` should come to on the way to the alias root, where it is
`j`, and back, where it is `k`: relative again, for the same place, and not passed over. -/
structure ComesBack (s : Settings) (dir : Path) (i j k : Import) : Prop where
  relative : k.form.isRelative = true
  place : resolveRelative dir k.body = resolveRelative dir i.body
  resolved : s.judge .toRelative dir j ≠ .unresolved

/-- A statement that is made alias-rooted, and the subpath that it gets. -/
theorem exists_rewritten_toAlias (h : s.judge .toAlias dir i = .replaced body) :
    ∃ subpath, aliasSubpath? dir i.body s.projectRoot = some subpath ∧
      body = s.token ++ '/' :: subpath ∧
      s.rewritten .toAlias dir i = { i with body, form := .aliasRooted subpath } := by
  obtain ⟨haccept, hother, -⟩ := judge_eq_replaced_iff.1 h
  rw [otherForm?_of_isRelative haccept] at hother
  obtain ⟨subpath, hsub, rfl⟩ := Option.map_eq_some_iff.1 hother
  exact ⟨subpath, hsub, rfl, rewritten_of_judge h (Form.ofBody?_alias (aliasSubpath?_ne_nil hsub))⟩

/-- A subpath that starts with the token and a slash is passed over on the way back. -/
theorem judge_toRelative_of_prefix (hform : j.form = .aliasRooted subpath)
    (h : s.token ++ ['/'] <+: subpath) : s.judge .toRelative dir j = .unresolved := by
  have hnone : s.otherForm? dir j = none := by
    rw [otherForm?, hform]
    exact if_pos (List.isPrefixOf_iff_prefix.2 h)
  rw [judge, hform, hnone]
  rfl

/-- Any other subpath is made relative on the way back, as far as it has a relative specifier. -/
theorem judge_toRelative_of_not_prefix {short : List Char} (ht : AliasToken.Valid s.token)
    (hform : j.form = .aliasRooted subpath) (hbody : j.body = s.token ++ '/' :: subpath)
    (h : ¬s.token ++ ['/'] <+: subpath)
    (hs : relativeSpecifier? dir subpath s.projectRoot = some short) :
    s.judge .toRelative dir j = .replaced short := by
  have hother : s.otherForm? dir j = some short := by
    rw [otherForm?, hform, ← hs]
    exact if_neg (mt List.isPrefixOf_iff_prefix.1 h)
  refine judge_eq_replaced_iff.2 ⟨by rw [hform]; rfl, hother, ?_⟩
  -- a relative specifier starts with a dot, and a token does not
  obtain ⟨-, -, down, back, -, rfl⟩ := relativeSpecifier?_eq_some_iff.1 hs
  intro heq
  have hnone := Form.aliasRooted?_climb ht back.length (joinSegments down)
  rw [heq, hbody, Form.aliasRooted?_eq_some_iff.2 ⟨subpath, ?_, rfl, rfl⟩] at hnone
  · cases hnone
  · rintro rfl
    cases (relativeSpecifier?_eq_some_iff.1 hs).1

/-- A statement that was made alias-rooted comes back precisely when its place does not lie below
the directory that is named like the token.  Otherwise the pass back leaves it as it is. -/
theorem comesBack_iff (ht : AliasToken.Valid s.token) (hr : s.projectRoot.isAbsolute = true)
    (h : s.judge .toAlias dir i = .replaced body) (hj : j = s.rewritten .toAlias dir i) :
    (s.ComesBack dir i j (s.rewritten .toRelative dir j) ↔
        ¬(resolveRelative dir i.body).IsBelow s.tokenDirectory) ∧
      ((resolveRelative dir i.body).IsBelow s.tokenDirectory →
        s.judge .toRelative dir j = .unresolved ∧ s.rewritten .toRelative dir j = j) := by
  obtain ⟨subpath, hsub, hbody, hrew⟩ := exists_rewritten_toAlias h
  rw [hrew] at hj
  have hform : j.form = .aliasRooted subpath := by rw [hj]
  rw [isBelow_tokenDirectory_iff ht hr hsub]
  by_cases hfront : s.token ++ ['/'] <+: subpath
  · have hjudge : s.judge .toRelative dir j = .unresolved := judge_toRelative_of_prefix hform hfront
    refine ⟨?_, fun _ => ⟨hjudge, rewritten_eq_self (by simp [hjudge])⟩⟩
    constructor
    · intro hback
      exact absurd hjudge hback.resolved
    · intro hnot
      exact absurd hfront hnot
  · refine ⟨?_, fun hfront' => absurd hfront' hfront⟩
    have hd := (isAbsolute_iff_of_aliasSubpath? hsub).2 hr
    obtain ⟨short, hs⟩ := exists_relativeSpecifier? hd hsub
    have hjudge := judge_toRelative_of_not_prefix ht hform (by rw [hj, hbody]) hfront hs
    obtain ⟨form, hform'⟩ := exists_replacement ht hjudge
    refine ⟨fun _ => hfront, fun _ => ?_⟩
    rw [rewritten_of_judge hjudge hform'.reads]
    exact ⟨hform'.leads, resolveRelative_relativeSpecifier? hsub hs, by simp [hjudge]⟩

/-! ## A whole text -/

/-- The statement that a pass puts at a position of a text. -/
theorem getElem?_statements_pass {d : Direction} {n : Nat} {l : Located}
    (ht : AliasToken.Valid s.token) (hw : s.WritesReadable d path.directory)
    (hl : (statements s.token text)[n]? = some l) :
    ∃ m, (statements s.token (s.pass d path text).content)[n]? = some m ∧
      m.statement = s.rewritten d path.directory l.statement := by
  have hmap := congrArg (·[n]?) (map_statement_pass ht hw text)
  simp only [List.getElem?_map, hl, Option.map_some] at hmap
  exact Option.map_eq_some_iff.1 hmap

/-- A text goes to the alias root and back.  A specifier that was replaced on the way there is
relative again, at its place in the text and for its place on the disk, precisely when that place
does not lie below the directory of the project root that is named like the token.  Below that
directory it is passed over on the way back, and stays alias-rooted. -/
theorem toRelative_toAlias_iff (s : Settings) (cwd path : Path) (text : List Char)
    (hcwd : cwd.isAbsolute = true) (hs : (s.anchored cwd).check = .ok ()) (hp : path.IsQuotable)
    (hr : (s.anchored cwd).projectRoot.IsQuotable) :
    let s := s.anchored cwd
    let there := (s.pass .toAlias path text).content
    let back := (s.pass .toRelative path there).content
    ∀ (n : Nat) (l : Located) (body : List Char), (statements s.token text)[n]? = some l →
      s.judge .toAlias path.directory l.statement = .replaced body →
      ∃ m k : Located, (statements s.token there)[n]? = some m ∧
        (statements s.token back)[n]? = some k ∧ m.statement.body = body ∧
        (s.ComesBack path.directory l.statement m.statement k.statement ↔
          ¬(resolveRelative path.directory l.statement.body).IsBelow s.tokenDirectory) ∧
        ((resolveRelative path.directory l.statement.body).IsBelow s.tokenDirectory →
          s.judge .toRelative path.directory m.statement = .unresolved ∧
            k.statement = m.statement) := by
  intro s there back n l body hl hjudge
  have ht : AliasToken.Valid s.token := valid_of_check hs
  have hroot : s.projectRoot.isAbsolute = true := isAbsolute_anchor _ hcwd
  have hw (d : Direction) : s.WritesReadable d path.directory :=
    writesReadable_of_isQuotable ht hp.directory hr
  obtain ⟨m, hm, hthere⟩ := getElem?_statements_pass ht (hw .toAlias) hl
  obtain ⟨k, hk, hback⟩ := getElem?_statements_pass ht (hw .toRelative) hm
  obtain ⟨subpath, -, -, hrew⟩ := exists_rewritten_toAlias hjudge
  have hall := comesBack_iff ht hroot hjudge hthere
  rw [← hback] at hall
  exact ⟨m, k, hm, hk, by rw [hthere, hrew], hall⟩

/-- A file in the directory that is named like the token: what it imports from its own directory
stays alias-rooted, what it imports from the project root comes back. -/
theorem toRelative_toAlias_iff_below_token :
    let s : Settings := { scanRoot := .ofString "/p", projectRoot := .ofString "/p" }
    let cwd := Path.ofString "/"
    let path := Path.ofString "/p/@/x.ts"
    let i : Import := ⟨.named, [' '], .single, "./b".toList, .relativeSame ['b']⟩
    let j : Import := ⟨.sideEffect, [' '], .double, "../c".toList, .relativeUp 1 ['c']⟩
    let text := Piece.render [.statement i, .plain ';', .statement j]
    let there := ((s.anchored cwd).pass .toAlias path text).content
    let back := ((s.anchored cwd).pass .toRelative path there).content
    cwd.isAbsolute = true ∧ (s.anchored cwd).check = .ok () ∧ path.IsQuotable ∧
      (s.anchored cwd).projectRoot.IsQuotable ∧
      (∃ m k : Located, (statements s.token there)[0]? = some m ∧
        (statements s.token back)[0]? = some k ∧ k.statement = m.statement ∧
        (s.anchored cwd).judge .toRelative path.directory m.statement = .unresolved) ∧
      ∃ m k : Located, (statements s.token there)[1]? = some m ∧
        (statements s.token back)[1]? = some k ∧
        (s.anchored cwd).ComesBack path.directory j m.statement k.statement := by
  intro s cwd path i j text there back
  have hcwd : cwd.isAbsolute = true := by decide
  have hs : (s.anchored cwd).check = .ok () := by decide
  have hp : path.IsQuotable := by decide
  have hr : (s.anchored cwd).projectRoot.IsQuotable := by decide
  have hpieces : Piece.pieces s.token text = [.statement i, .plain ';', .statement j] :=
    Piece.cut_eq_iff.2 ⟨rfl, by decide⟩
  have hstatements : statements s.token text = [⟨0, i⟩, ⟨11, j⟩] := by
    rw [statements, hpieces]
    rfl
  have hall := toRelative_toAlias_iff s cwd path text hcwd hs hp hr
  refine ⟨hcwd, hs, hp, hr, ?_, ?_⟩
  · obtain ⟨m, k, hm, hk, -, -, hstays⟩ := hall 0 ⟨0, i⟩ "@/@/b".toList
      (congrArg (·[0]?) hstatements) (by decide)
    obtain ⟨hjudge, hsame⟩ := hstays (by decide)
    exact ⟨m, k, hm, hk, hsame, hjudge⟩
  · obtain ⟨m, k, hm, hk, -, hback, -⟩ := hall 1 ⟨11, j⟩ "@/c".toList
      (congrArg (·[1]?) hstatements) (by decide)
    exact ⟨m, k, hm, hk, hback.2 (by decide)⟩

/-- So going there and back is not always undone: a neighbour in that directory ends up
alias-rooted, with its specifier among those that could not be expressed. -/
theorem toAlias_not_undone :
    let s := anchored { scanRoot := .ofString "/p", projectRoot := .ofString "/p" } (.ofString "/")
    let path := Path.ofString "/p/@/x.ts"
    let i : Import := ⟨.sideEffect, [' '], .double, "./b".toList, .relativeSame ['b']⟩
    let there := (s.pass .toAlias path i.text).content
    s.check = .ok () ∧ (s.pass .toAlias path i.text).replaced = 1 ∧
      there = "import \"@/@/b\"".toList ∧ (s.pass .toRelative path there).content = there ∧
      (s.pass .toRelative path there).unresolved = ["@/@/b".toList] := by
  intro s path i there
  have hi : i.Legal s.token := by decide
  have hpieces := Piece.pieces_text hi
  have hthere : there = "import \"@/@/b\"".toList := by
    change (s.pass .toAlias path i.text).content = _
    rw [pass, hpieces]
    decide
  let j : Import := ⟨.sideEffect, [' '], .double, "@/@/b".toList, .aliasRooted "@/b".toList⟩
  have hj : j.Legal s.token := by decide
  have htext : there = j.text := by
    rw [hthere]
    decide
  refine ⟨by decide, ?_, hthere, ?_, ?_⟩
  · rw [pass, hpieces]
    decide
  · rw [htext, pass, Piece.pieces_text hj]
    decide
  · rw [htext, pass, Piece.pieces_text hj]
    decide

end Settings

end ImportPaths
