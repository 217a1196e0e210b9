import AnswerKey.Text.Lines

namespace AnswerKey.Text

theorem after?_append_append (w piece text : List Char) : after? (w ++ piece) (w ++ text) = after? piece text := by
  induction w with
  | nil => rfl
  | cons c w ih => simpa [after?] using ih

theorem isSuffix_of_after? {piece text rest : List Char} (h : after? piece text = some rest) : rest <:+ text := by
  rw [after?_eq_some_iff.mp h]
  exact List.suffix_append piece rest

theorem byteLength_append (s t : List Char) : byteLength (s ++ t) = byteLength s + byteLength t := by
  induction s with
  | nil => simp [byteLength]
  | cons c s ih =>
    simp only [byteLength, List.cons_append, List.foldr_cons] at ih ⊢
    omega

theorem columns_append (s t : Line) : columns (s ++ t) = columns s + columns t := by
  induction s with
  | nil => simp [columns]
  | cons c s ih =>
    simp only [columns, List.cons_append, List.foldr_cons] at ih ⊢
    omega

section

variable {w : Line}

theorem isBlank_of_mem (hw : isBlankLine w = true) : ∀ c ∈ w, isBlank c = true :=
  List.all_eq_true.mp hw

theorem trimStart_append (hw : isBlankLine w = true) (line : Line) : trimStart (w ++ line) = trimStart line :=
  List.dropWhile_append_of_pos (isBlank_of_mem hw)

theorem indentation_append (hw : isBlankLine w = true) (line : Line) :
    indentation (w ++ line) = w ++ indentation line :=
  List.takeWhile_append_of_pos (isBlank_of_mem hw)

theorem isBlankLine_append (hw : isBlankLine w = true) (line : Line) :
    isBlankLine (w ++ line) = isBlankLine line := by
  simp only [isBlankLine, List.all_append] at hw ⊢
  rw [hw, Bool.true_and]

theorem indentWidth_append (hw : isBlankLine w = true) (line : Line) :
    indentWidth (w ++ line) = columns w + indentWidth line := by
  rw [indentWidth, indentation_append hw, columns_append, indentWidth]

end

section

variable {lines others : List Line} {line blanks w : Line}

theorem sharedStart_append (w s t : List Char) : sharedStart (w ++ s) (w ++ t) = w ++ sharedStart s t := by
  induction w with
  | nil => rfl
  | cons c w ih => simp [sharedStart, ih]

theorem sharedStart_isPrefix (s t : List Char) : sharedStart s t <+: s ∧ sharedStart s t <+: t := by
  fun_induction sharedStart s t with
  | case1 s a t ih => exact ⟨(List.prefix_cons_inj a).mpr ih.1, (List.prefix_cons_inj a).mpr ih.2⟩
  | case2 => exact ⟨List.nil_prefix, List.nil_prefix⟩
  | case3 => exact ⟨List.nil_prefix, List.nil_prefix⟩

theorem foldl_sharedStart_append (w : Line) :
    (others.map (w ++ ·)).foldl sharedStart (w ++ blanks) = w ++ others.foldl sharedStart blanks := by
  induction others generalizing blanks with
  | nil => rfl
  | cons o others ih => rw [List.map_cons, List.foldl_cons, sharedStart_append, ih, List.foldl_cons]

theorem foldl_sharedStart_isPrefix (others : List Line) (blanks : Line) :
    ∀ o ∈ blanks :: others, others.foldl sharedStart blanks <+: o := by
  induction others generalizing blanks with
  | nil => simp
  | cons a others ih =>
    have hfirst : others.foldl sharedStart (sharedStart blanks a) <+: sharedStart blanks a := ih _ _ List.mem_cons_self
    intro o ho
    rw [List.foldl_cons]
    rcases List.mem_cons.mp ho with rfl | ho
    · exact hfirst.trans (sharedStart_isPrefix _ a).1
    rcases List.mem_cons.mp ho with rfl | ho
    · exact hfirst.trans (sharedStart_isPrefix blanks _).2
    · exact ih _ o (List.mem_cons_of_mem _ ho)

theorem sharedIndentation_isPrefix (h : line ∈ lines) (hline : isBlankLine line = false) :
    sharedIndentation lines <+: line := by
  have hmem : indentation line ∈ (lines.filter (!isBlankLine ·)).map indentation :=
    List.mem_map_of_mem (List.mem_filter.mpr ⟨h, by simp [hline]⟩)
  have hindent : indentation line <+: line := List.takeWhile_prefix _
  unfold sharedIndentation
  split
  · next hnil => simp [hnil] at hmem
  · next blanks others hcons =>
    rw [hcons] at hmem
    exact (foldl_sharedStart_isPrefix others blanks _ hmem).trans hindent

theorem sharedIndentation_indented (hw : isBlankLine w = true) (h : line ∈ lines) (hline : isBlankLine line = false) :
    sharedIndentation (lines.map (w ++ ·)) = w ++ sharedIndentation lines := by
  have hmem : indentation line ∈ (lines.filter (!isBlankLine ·)).map indentation :=
    List.mem_map_of_mem (List.mem_filter.mpr ⟨h, by simp [hline]⟩)
  have hmoved : ((lines.map (w ++ ·)).filter (!isBlankLine ·)).map indentation =
      ((lines.filter (!isBlankLine ·)).map indentation).map (w ++ ·) := by
    rw [List.filter_map, List.map_map, List.map_map]
    simp only [Function.comp_def, isBlankLine_append hw, indentation_append hw]
  unfold sharedIndentation
  rw [hmoved]
  cases hshared : (lines.filter (!isBlankLine ·)).map indentation with
  | nil => simp [hshared] at hmem
  | cons blanks others => exact foldl_sharedStart_append w

theorem dedent_indented (hw : isBlankLine w = true) (lines : List Line) :
    dedent (lines.map (w ++ ·)) = dedent lines := by
  unfold dedent
  dsimp only
  rw [List.map_map]
  refine List.map_congr_left fun line hline ↦ ?_
  rw [Function.comp_apply, isBlankLine_append hw]
  split
  · rfl
  · next hcode =>
    have hcode := Bool.eq_false_iff.mpr hcode
    -- the line begins with what is taken away, so the line as a whole is never kept
    obtain ⟨rest, hrest⟩ := sharedIndentation_isPrefix hline hcode
    have hafter : after? (sharedIndentation lines) line = some rest := after?_eq_some_iff.mpr hrest.symm
    rw [sharedIndentation_indented hw hline hcode, after?_append_append, hafter, Option.getD_some, Option.getD_some]

theorem isBlankLine_of_isPrefix {s t : Line} (h : s <+: t) (ht : isBlankLine t = true) : isBlankLine s = true :=
  List.all_eq_true.mpr fun c hc ↦ isBlank_of_mem ht c (h.subset hc)

theorem isPrefix_sharedStart {s t : List Char} (hs : w <+: s) (ht : w <+: t) : w <+: sharedStart s t := by
  obtain ⟨s, rfl⟩ := hs
  obtain ⟨t, rfl⟩ := ht
  rw [sharedStart_append]
  exact List.prefix_append _ _

theorem isPrefix_foldl_sharedStart (h : ∀ o ∈ blanks :: others, w <+: o) : w <+: others.foldl sharedStart blanks := by
  induction others generalizing blanks with
  | nil => exact h blanks List.mem_cons_self
  | cons a others ih =>
    rw [List.forall_mem_cons, List.forall_mem_cons] at h
    obtain ⟨hblanks, ha, hothers⟩ := h
    apply ih
    intro o ho
    rcases List.mem_cons.mp ho with rfl | ho
    · exact isPrefix_sharedStart hblanks ha
    · exact hothers o ho

theorem isPrefix_sharedIndentation (hw : isBlankLine w = true) (hline : line ∈ lines) (hcode : isBlankLine line = false)
    (h : ∀ line ∈ lines, isBlankLine line = false → w <+: line) : w <+: sharedIndentation lines := by
  have hindent : ∀ o ∈ (lines.filter (!isBlankLine ·)).map indentation, w <+: o := by
    intro o ho
    obtain ⟨line, hmem, rfl⟩ := List.mem_map.mp ho
    obtain ⟨hmem, hcode⟩ := List.mem_filter.mp hmem
    obtain ⟨rest, rfl⟩ := h line hmem (by simpa using hcode)
    rw [indentation_append hw]
    exact List.prefix_append _ _
  have hmem : indentation line ∈ (lines.filter (!isBlankLine ·)).map indentation :=
    List.mem_map_of_mem (List.mem_filter.mpr ⟨hline, by simp [hcode]⟩)
  unfold sharedIndentation
  split
  · next hnil => simp [hnil] at hmem
  · next blanks others hcons => exact isPrefix_foldl_sharedStart (hcons ▸ hindent)

theorem isBlankLine_sharedIndentation (lines : List Line) : isBlankLine (sharedIndentation lines) = true := by
  unfold sharedIndentation
  split
  · rfl
  · next blanks others hcons =>
    have hmem : blanks ∈ (lines.filter (!isBlankLine ·)).map indentation := hcons ▸ List.mem_cons_self
    obtain ⟨line, -, rfl⟩ := List.mem_map.mp hmem
    exact isBlankLine_of_isPrefix (foldl_sharedStart_isPrefix others _ _ List.mem_cons_self) List.all_takeWhile

theorem exists_dedent_eq (lines : List Line) : ∃ f : Line → Line, dedent lines = lines.map f ∧
    ∀ line ∈ lines, (isBlankLine line = true → f line = []) ∧
      (isBlankLine line = false → isBlankLine (f line) = false ∧ line = sharedIndentation lines ++ f line) := by
  refine ⟨_, rfl, fun line hline ↦ ⟨fun hblank ↦ ?_, fun hcode ↦ ?_⟩⟩
  · simp only [hblank, if_true]
  · obtain ⟨rest, rfl⟩ := sharedIndentation_isPrefix hline hcode
    have hrest : isBlankLine rest = false := by
      rwa [isBlankLine_append (isBlankLine_sharedIndentation lines)] at hcode
    simp [hcode, after?_append, hrest]

/-- Of the blanks that lines share none is left once they are taken away. -/
theorem sharedIndentation_dedent (lines : List Line) : sharedIndentation (dedent lines) = [] := by
  obtain ⟨f, hdedent, hf⟩ := exists_dedent_eq lines
  by_cases hcode : ∃ line ∈ lines, isBlankLine line = false
  · obtain ⟨line, hline, hcode⟩ := hcode
    -- what is still shared would have been shared before, together with what was taken away
    have hlonger : sharedIndentation lines ++ sharedIndentation (dedent lines) <+: sharedIndentation lines := by
      apply isPrefix_sharedIndentation _ hline hcode
      · intro other hother hcode
        obtain ⟨hkept, heq⟩ := (hf other hother).2 hcode
        have hmem : f other ∈ dedent lines := hdedent ▸ List.mem_map_of_mem hother
        have hshared : sharedIndentation (dedent lines) <+: f other := sharedIndentation_isPrefix hmem hkept
        exact heq ▸ (List.prefix_append_right_inj _).mpr hshared
      · rw [isBlankLine_append (isBlankLine_sharedIndentation lines)]
        exact isBlankLine_sharedIndentation _
    have hlength := hlonger.length_le
    rw [List.length_append] at hlength
    exact List.length_eq_zero_iff.mp (by omega)
  · have hempty : ∀ line ∈ lines, f line = [] := fun line hline ↦
      (hf line hline).1 (by simpa using fun h ↦ hcode ⟨line, hline, h⟩)
    have hnone : (dedent lines).filter (!isBlankLine ·) = [] := by
      rw [hdedent, List.filter_eq_nil_iff, List.forall_mem_map]
      intro line hline
      simp [hempty line hline, isBlankLine]
    rw [sharedIndentation, hnone]
    rfl

theorem isBlankLine_dedent {out : Line} (h : out ∈ dedent lines) (hblank : isBlankLine out = true) : out = [] := by
  obtain ⟨f, hdedent, hf⟩ := exists_dedent_eq lines
  obtain ⟨line, hline, rfl⟩ := List.mem_map.mp (hdedent ▸ h)
  cases hcode : isBlankLine line with
  | true => exact (hf line hline).1 hcode
  | false =>
    obtain ⟨hkept, -⟩ := (hf line hline).2 hcode
    exact absurd hblank (by simp [hkept])

theorem dedent_dedent (lines : List Line) : dedent (dedent lines) = dedent lines := by
  obtain ⟨f, hdedent, hf⟩ := exists_dedent_eq (dedent lines)
  have hkept : ∀ out ∈ dedent lines, f out = out := by
    intro out hout
    cases hblank : isBlankLine out with
    | true => rw [(hf out hout).1 hblank, isBlankLine_dedent hout hblank]
    | false =>
      obtain ⟨-, heq⟩ := (hf out hout).2 hblank
      rw [sharedIndentation_dedent, List.nil_append] at heq
      exact heq.symm
  rw [hdedent, List.map_congr_left hkept, List.map_id']

theorem newline_not_mem_dedent (hlines : ∀ line ∈ lines, '\n' ∉ line) : ∀ line ∈ dedent lines, '\n' ∉ line := by
  obtain ⟨f, hdedent, hf⟩ := exists_dedent_eq lines
  rw [hdedent, List.forall_mem_map]
  intro line hline hmem
  cases hblank : isBlankLine line with
  | true => simp [(hf line hline).1 hblank] at hmem
  | false =>
    obtain ⟨-, heq⟩ := (hf line hline).2 hblank
    apply hlines line hline
    rw [heq]
    exact List.mem_append_right _ hmem

end

end AnswerKey.Text
