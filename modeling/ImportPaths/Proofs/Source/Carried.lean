import ImportPaths.Proofs.Source.Pass
import ImportPaths.Proofs.Specifier.Names

/-!
# Which specifiers can be read again

A new specifier is made of the token, of names of the old specifier, and of names that come from
the paths involved.  The first two fit between quotes; nothing looks at the third.
`Settings.carried` says which names these are, exactly: what a pass writes can always be read again
precisely when they hold no quote and no line break (`writesReadable_iff_carried`).  Paths without
such characters are one case of this (`writesReadable_of_isQuotable`).
-/

namespace ImportPaths

open ImportPaths.Path

/-! ## Characters between quotes -/

/-- A valid token fits between quotes. -/
theorem AliasToken.Valid.isBodyChar {token : List Char} (h : AliasToken.Valid token) {c : Char}
    (hc : c ∈ token) : isBodyChar c = true := by
  obtain ⟨-, hquote, hblank⟩ := h.2.2 c hc
  have hline : c ≠ '\n' ∧ c ≠ '\r' := by
    constructor
    · rintro rfl
      cases hblank
    · rintro rfl
      cases hblank
  have hmark : c ≠ '\'' ∧ c ≠ '"' := by
    constructor
    · rintro rfl
      cases hquote
    · rintro rfl
      cases hquote
  simp [ImportPaths.isBodyChar, hline, hmark]

theorem isBodyChar_climb (n : Nat) {c : Char} (hc : c ∈ climb n) : isBodyChar c = true := by
  have hsame : sameMark.all isBodyChar = true := by decide
  have hup : upMark.all isBodyChar = true := by decide
  unfold climb at hc
  split at hc
  · exact List.all_eq_true.1 hsame c hc
  · obtain ⟨m, hm, hc⟩ := List.mem_flatten.1 hc
    rw [List.eq_of_mem_replicate hm] at hc
    exact List.all_eq_true.1 hup c hc

/-- Any specifier that has a form and fits between quotes stands in some legal statement. -/
theorem Import.exists_legal {token body : List Char} {form : Form} (hne : body ≠ [])
    (hchars : ∀ c ∈ body, isBodyChar c = true) (hform : Form.ofBody? token body = some form) :
    ∃ i : Import, i.Legal token ∧ i.body = body ∧ i.form = form := by
  refine ⟨⟨.named, [' '], .single, body, form⟩, ⟨by simp, ?_, hne, hchars, hform⟩, rfl, rfl⟩
  intro c hc
  rw [List.mem_singleton.1 hc]
  rfl

namespace Settings

variable {s : Settings} {d : Direction} {dir : Path} {i : Import} {body : List Char}
  {name : Segment} {c : Char}

/-! ## The names that a pass takes over -/

/-- The names that a pass takes over from paths for a file in `dir`.  On the way to the alias root
they lead from the project root down to `dir`; on the way to relative specifiers they lead down to
the project root, from where it and `dir` part. -/
def carried (s : Settings) (dir : Path) : Direction → List Segment
  | .toAlias => ((dir.clean.below? s.projectRoot).bind (·.mapM Component.name?)).getD []
  | .toRelative => ((stepsTo? s.projectRoot dir.clean).map Prod.snd).getD []

theorem mem_carried_toAlias :
    name ∈ s.carried dir .toAlias ↔ ∃ down : List Segment,
      dir.clean.components = s.projectRoot.components ++ down.map .name ∧ name ∈ down := by
  simp only [← names_below_iff, carried]
  cases (dir.clean.below? s.projectRoot).bind (·.mapM Component.name?) <;> simp

theorem mem_carried_toRelative :
    name ∈ s.carried dir .toRelative ↔ ∃ m down,
      stepsTo? s.projectRoot dir.clean = some (m, down) ∧ name ∈ down := by
  rw [carried]
  rcases stepsTo? s.projectRoot dir.clean with _ | ⟨m, down⟩ <;> simp

/-- A character among names stands in one that is taken over, when the other names fit between
quotes. -/
theorem isBodyChar_or_mem {names taken : List Segment}
    (h : ∀ t ∈ names, (∀ c ∈ t, isBodyChar c = true) ∨ t ∈ taken) (hc : c ∈ joinSegments names) :
    isBodyChar c = true ∨ ∃ t ∈ taken, c ∈ t := by
  rcases mem_joinSegments hc with rfl | ⟨t, ht, hc⟩
  · left
    decide
  · rcases h t ht with hown | htaken
    · exact Or.inl (hown c hc)
    · exact Or.inr ⟨t, htaken, hc⟩

/-- Every character that a pass writes fits between quotes, or stands in a name it takes over. -/
theorem isBodyChar_or_mem_carried (ht : AliasToken.Valid s.token) (hi : i.Legal s.token)
    (h : s.judge d dir i = .replaced body) (hc : c ∈ body) :
    isBodyChar c = true ∨ ∃ name ∈ s.carried dir d, c ∈ name := by
  obtain ⟨haccept, hother, -⟩ := judge_eq_replaced_iff.1 h
  rcases otherForm?_eq_some hother with ⟨subpath, hform, hrel⟩ | ⟨hform, subpath, hsub, rfl⟩
  · cases d with
    | toAlias =>
      rw [hform] at haccept
      cases haccept
    | toRelative =>
      obtain ⟨n, names, rfl, hnames⟩ := name_of_relativeSpecifier? hrel
      rcases List.mem_append.1 hc with hc | hc
      · exact Or.inl (isBodyChar_climb n hc)
      · refine isBodyChar_or_mem ?_ hc
        intro t ht
        refine (hnames t ht).imp (fun hown c hc => hi.body_chars c ?_) mem_carried_toRelative.2
        rw [← token_subpath_eq_body hi hform]
        exact List.mem_append_right _ (List.mem_cons_of_mem _ (hown hc))
  · cases d with
    | toRelative =>
      rw [Direction.accepts_eq, Direction.leadsTo, hform] at haccept
      cases haccept
    | toAlias =>
      obtain ⟨names, rfl, hnames⟩ := name_of_aliasSubpath? hi.form_eq hform hsub
      rcases List.mem_append.1 hc with hc | hc
      · exact Or.inl (ht.isBodyChar hc)
      · rcases List.mem_cons.1 hc with rfl | hc
        · left
          decide
        · refine isBodyChar_or_mem ?_ hc
          intro t ht
          exact (hnames t ht).imp (fun hown c hc => hi.body_chars c (hown hc))
            mem_carried_toAlias.2

/-- A translation that holds a character which no specifier can hold is another specifier. -/
theorem judge_of_otherForm? (hi : i.Legal s.token) (haccept : d.accepts i.form = true)
    (hother : s.otherForm? dir i = some body) (hc : c ∈ body) (hbad : isBodyChar c = false) :
    s.judge d dir i = .replaced body := by
  refine judge_eq_replaced_iff.2 ⟨haccept, hother, ?_⟩
  rintro rfl
  rw [hi.body_chars c hc] at hbad
  cases hbad

theorem isName_x : IsName ['x'] := ⟨by decide, by decide⟩

/-- Names that are taken over on the way to the alias root stand in the translation of `./x`. -/
theorem exists_judge_toAlias (ht : AliasToken.Valid s.token) (hname : name ∈ s.carried dir .toAlias)
    (hc : c ∈ name) (hbad : isBodyChar c = false) :
    ∃ i, i.Legal s.token ∧ ∃ body, s.judge .toAlias dir i = .replaced body ∧ c ∈ body := by
  obtain ⟨down, hdown, hd⟩ := mem_carried_toAlias.1 hname
  obtain ⟨form, hread, hrel⟩ := Form.ofBody?_climb ht 0 (joinSegments [['x']])
  have hchars : ∀ c ∈ climb 0 ++ joinSegments [['x']], isBodyChar c = true :=
    List.all_eq_true.1 (by decide)
  obtain ⟨i, hi, hbody, rfl⟩ := Import.exists_legal (by decide) hchars hread
  have hother : s.otherForm? dir i = some (s.token ++ '/' :: joinSegments (down ++ [['x']])) := by
    rw [otherForm?_of_isRelative hrel, hbody,
      aliasSubpath?_of_down isName_x (List.ne_nil_of_mem hd) hdown, Option.map_some]
  have hmem : c ∈ s.token ++ '/' :: joinSegments (down ++ [['x']]) := by
    refine List.mem_append_right _ (List.mem_cons_of_mem _ ?_)
    exact mem_joinSegments_of_mem (List.mem_append_left _ hd) hc
  exact ⟨i, hi, _, judge_of_otherForm? hi hrel hother hmem hbad, hmem⟩

/-- Names that are taken over on the way to relative specifiers stand in the translation of `x`
under the token. -/
theorem exists_judge_toRelative (ht : AliasToken.Valid s.token)
    (hroot : s.projectRoot.clean = s.projectRoot) (hname : name ∈ s.carried dir .toRelative)
    (hc : c ∈ name) (hbad : isBodyChar c = false) :
    ∃ i, i.Legal s.token ∧ ∃ body, s.judge .toRelative dir i = .replaced body ∧ c ∈ body := by
  obtain ⟨m, down, hsteps, hd⟩ := mem_carried_toRelative.1 hname
  have hchars : ∀ c ∈ s.token ++ '/' :: joinSegments [['x']], isBodyChar c = true := by
    intro c hc
    rcases List.mem_append.1 hc with hc | hc
    · exact ht.isBodyChar hc
    · exact List.all_eq_true.1 (show ('/' :: joinSegments [['x']]).all isBodyChar by decide) c hc
  have hread : Form.ofBody? s.token (s.token ++ '/' :: joinSegments [['x']]) =
      some (.aliasRooted (joinSegments [['x']])) := Form.ofBody?_alias (by decide)
  obtain ⟨i, hi, -, hform⟩ := Import.exists_legal (by simp) hchars hread
  -- one name is too short to start with the token and a slash again
  have hshort : ¬(s.token ++ ['/']).isPrefixOf (joinSegments [['x']]) = true := by
    rw [List.isPrefixOf_iff_prefix]
    intro hfront
    have hlength := hfront.length_le
    have hpos := List.length_pos_iff.2 ht.1
    rw [List.length_append, show (joinSegments [['x']]).length = 1 from rfl,
      List.length_singleton] at hlength
    omega
  have hother : s.otherForm? dir i = some (climb m ++ joinSegments (down ++ [['x']])) := by
    rw [otherForm?, hform]
    dsimp only
    rw [if_neg hshort, relativeSpecifier?_of_down isName_x hroot (List.ne_nil_of_mem hd) hsteps]
  have hmem : c ∈ climb m ++ joinSegments (down ++ [['x']]) := by
    refine List.mem_append_right _ ?_
    exact mem_joinSegments_of_mem (List.mem_append_left _ hd) hc
  refine ⟨i, hi, _, judge_of_otherForm? hi ?_ hother hmem hbad, hmem⟩
  rw [hform]
  rfl

theorem writesReadable_of_carried (ht : AliasToken.Valid s.token)
    (h : ∀ name ∈ s.carried dir d, ∀ c ∈ name, isBodyChar c = true) : s.WritesReadable d dir := by
  intro i hi body hjudge c hc
  rcases isBodyChar_or_mem_carried ht hi hjudge hc with hgood | ⟨name, hname, hmem⟩
  · exact hgood
  · exact h name hname c hmem

/-- What a pass writes can be read again precisely when the names that it takes over hold no quote
and no line break. -/
theorem writesReadable_iff_carried (ht : AliasToken.Valid s.token)
    (hroot : s.projectRoot.clean = s.projectRoot) :
    s.WritesReadable d dir ↔ ∀ name ∈ s.carried dir d, ∀ c ∈ name, isBodyChar c = true := by
  constructor
  · intro h name hname c hc
    by_contra hnot
    have hbad : isBodyChar c = false := Bool.not_eq_true _ ▸ hnot
    have hwritten : ∃ i, i.Legal s.token ∧ ∃ body, s.judge d dir i = .replaced body ∧ c ∈ body := by
      cases d with
      | toAlias => exact exists_judge_toAlias ht hname hc hbad
      | toRelative => exact exists_judge_toRelative ht hroot hname hc hbad
    obtain ⟨i, hi, body, hjudge, hmem⟩ := hwritten
    exact hnot (h i hi body hjudge c hmem)
  · exact writesReadable_of_carried ht

/-- Names without quotes and line breaks are safe to write. -/
theorem writesReadable_of_isQuotable (ht : AliasToken.Valid s.token) (hd : dir.IsQuotable)
    (hr : s.projectRoot.IsQuotable) : s.WritesReadable d dir := by
  refine writesReadable_of_carried ht ?_
  intro name hname
  cases d with
  | toAlias =>
    obtain ⟨down, hdown, hmem⟩ := mem_carried_toAlias.1 hname
    refine isQuotable_iff_names.1 hd.clean name ?_
    rw [hdown]
    exact List.mem_append_right _ (List.mem_map_of_mem hmem)
  | toRelative =>
    obtain ⟨m, down, hsteps, hmem⟩ := mem_carried_toRelative.1 hname
    obtain ⟨back, hdrop, -⟩ := stepsTo?_eq_some_iff.1 hsteps
    obtain ⟨cs, hcs, -⟩ := exists_dropCommon s.projectRoot.components dir.clean.components
    refine isQuotable_iff_names.1 hr name ?_
    rw [hcs, hdrop]
    exact List.mem_append_right _ (List.mem_map_of_mem hmem)

end Settings

end ImportPaths
