import AnswerKey.Proofs.Code.OuterComma

namespace AnswerKey.Code

open Text

/-- The text has no comma outside brackets and literals if it stands at a level. -/
def Uncut (level : Level) (text : List Char) : Prop :=
  ∀ front rest, text = front ++ ',' :: rest → level.after front ≠ (0, .code)

/-- Pieces behind each of which, the last apart, a comma stands outside brackets and literals, as it does nowhere in
them. -/
inductive OuterCut : Level → List (List Char) → Prop where
  | last {level : Level} {piece : List Char} (h : Uncut level piece) : OuterCut level [piece]
  | cons {level : Level} {piece : List Char} {pieces : List (List Char)} (h : Uncut level piece)
      (hlevel : level.after piece = (0, .code)) (hpieces : OuterCut (0, .code) pieces) :
      OuterCut level (piece :: pieces)

/-- The comma between two texts is one of those that join the pieces. -/
def IsJoint (pieces : List (List Char)) (before behind : List Char) : Prop :=
  ∃ left right, left ≠ [] ∧ right ≠ [] ∧ pieces = left ++ right ∧ before = join [','] left ∧ behind = join [','] right

section

variable {level : Level} {c : Char} {s t w text piece before behind : List Char} {pieces front : List (List Char)}

theorem uncut_nil (level : Level) : Uncut level [] := by
  intro front rest h
  simp at h

theorem uncut_cons : Uncut level (c :: text) ↔ ¬ (c = ',' ∧ level = (0, .code)) ∧ Uncut (level.next c) text := by
  constructor
  · refine fun h ↦ ⟨?_, fun front rest htext ↦ ?_⟩
    · rintro ⟨rfl, rfl⟩
      exact h [] text rfl rfl
    · subst htext
      exact h (c :: front) rest rfl
  · rintro ⟨hcomma, h⟩ front rest htext
    cases front with
    | nil =>
      obtain ⟨rfl, -⟩ := List.cons.inj htext
      exact fun hlevel ↦ hcomma ⟨rfl, hlevel⟩
    | cons a front =>
      obtain ⟨rfl, rfl⟩ := List.cons.inj htext
      exact h front rest rfl

theorem OuterCut.ne_nil (h : OuterCut level pieces) : pieces ≠ [] := by
  cases h <;> exact List.cons_ne_nil _ _

theorem outerCut_cons (hpieces : pieces ≠ []) :
    OuterCut level (piece :: pieces) ↔
      Uncut level piece ∧ level.after piece = (0, .code) ∧ OuterCut (0, .code) pieces := by
  refine ⟨fun h ↦ ?_, fun ⟨h, hlevel, hrest⟩ ↦ .cons h hlevel hrest⟩
  cases h with
  | last => exact absurd rfl hpieces
  | cons h hlevel hrest => exact ⟨h, hlevel, hrest⟩

theorem join_comma_concat (hpieces : pieces ≠ []) :
    join [','] (pieces ++ [piece]) = join [','] pieces ++ ',' :: piece := by
  induction pieces with
  | nil => exact absurd rfl hpieces
  | cons first rest ih =>
    by_cases hrest : rest = []
    · rw [hrest, List.singleton_append, join_comma_cons (List.cons_ne_nil _ _), join_comma_singleton,
        join_comma_singleton]
    · rw [List.cons_append, join_comma_cons (by simp), ih hrest, join_comma_cons hrest, List.append_assoc]
      rfl

theorem join_comma_attach (hpieces : pieces ≠ []) : join [','] (attach s pieces) = s ++ join [','] pieces := by
  obtain ⟨first, rest, rfl⟩ := List.exists_cons_of_ne_nil hpieces
  cases rest with
  | nil => rw [attach, join_comma_singleton, join_comma_singleton]
  | cons next rest =>
    rw [attach, join_comma_cons (List.cons_ne_nil _ _), join_comma_cons (List.cons_ne_nil _ _), List.append_assoc]

theorem OuterCut.attach (hc : ¬ (c = ',' ∧ level = (0, .code))) (h : OuterCut (level.next c) pieces) :
    OuterCut level (attach [c] pieces) := by
  cases h with
  | last h => exact .last (uncut_cons.mpr ⟨hc, h⟩)
  | cons h hlevel hpieces => exact .cons (uncut_cons.mpr ⟨hc, h⟩) hlevel hpieces

theorem outerCut_segments (depth : Nat) (mode : Mode) (text : List Char) :
    OuterCut (depth, mode) (segments depth mode text) ∧ join [','] (segments depth mode text) = text := by
  induction text generalizing depth mode with
  | nil => exact ⟨.last (uncut_nil _), join_comma_singleton []⟩
  | cons c text ih =>
    by_cases hcomma : mode = .code ∧ c = ',' ∧ depth = 0
    · obtain ⟨rfl, rfl, rfl⟩ := hcomma
      obtain ⟨hcut, hjoin⟩ := ih 0 .code
      rw [segments_comma, join_comma_cons hcut.ne_nil, hjoin]
      exact ⟨.cons (uncut_nil _) rfl hcut, rfl⟩
    · obtain ⟨hcut, hjoin⟩ := ih (bracketDepth mode depth c) (mode.next c)
      have hlevel : ¬ (c = ',' ∧ (depth, mode) = ((0, .code) : Level)) := by
        rintro ⟨rfl, heq⟩
        obtain ⟨rfl, rfl⟩ := Prod.mk.inj heq
        exact hcomma ⟨rfl, rfl, rfl⟩
      rw [segments_cons hcomma, join_comma_attach hcut.ne_nil, hjoin]
      exact ⟨.attach hlevel hcut, rfl⟩

theorem segments_append_of_uncut {depth : Nat} {mode : Mode} (hs : Uncut (depth, mode) s) (t : List Char) :
    segments depth mode (s ++ t) =
      Code.attach s (segments (Level.after (depth, mode) s).1 (Level.after (depth, mode) s).2 t) := by
  induction s generalizing depth mode with
  | nil => exact (attach_nil (segments_ne_nil _ _ _)).symm
  | cons c s ih =>
    obtain ⟨hc, hs⟩ := uncut_cons.mp hs
    have hcomma : ¬ (mode = .code ∧ c = ',' ∧ depth = 0) := by
      rintro ⟨rfl, rfl, rfl⟩
      exact hc ⟨rfl, rfl⟩
    rw [List.cons_append, segments_cons hcomma, ih hs, attach_attach]
    rfl

/-- There is no other way to cut a text at its outer commas. -/
theorem OuterCut.segments_join {depth : Nat} {mode : Mode} (h : OuterCut (depth, mode) pieces) :
    segments depth mode (join [','] pieces) = pieces := by
  generalize hstart : (depth, mode) = level at h
  induction h generalizing depth mode with
  | last h =>
    subst hstart
    have hwhole := segments_append_of_uncut h []
    rw [List.append_nil] at hwhole
    rw [join_comma_singleton, hwhole]
    simp [Code.attach, segments]
  | cons h hlevel hpieces ih =>
    subst hstart
    rw [join_comma_cons hpieces.ne_nil, segments_append_of_uncut h, hlevel, segments_comma, ih rfl]
    simp [Code.attach]

theorem OuterCut.after_join {left right : List (List Char)} (h : OuterCut level (left ++ right)) (hleft : left ≠ [])
    (hright : right ≠ []) : level.after (join [','] left) = (0, .code) := by
  induction left generalizing level with
  | nil => exact absurd rfl hleft
  | cons piece left ih =>
    obtain ⟨-, hlevel, hrest⟩ := (outerCut_cons (List.append_ne_nil_of_right_ne_nil left hright)).mp h
    by_cases hnil : left = []
    · rw [hnil, join_comma_singleton, hlevel]
    · rw [join_comma_cons hnil, Level.after_append, hlevel, Level.after_cons]
      exact ih hrest hnil

theorem OuterCut.isJoint (h : OuterCut level pieces) (htext : join [','] pieces = before ++ ',' :: behind)
    (hbefore : level.after before = (0, .code)) : IsJoint pieces before behind := by
  induction h generalizing before with
  | last h =>
    rw [join_comma_singleton] at htext
    exact absurd hbefore (h before behind htext)
  | @cons level piece pieces h hlevel hpieces ih =>
    rw [join_comma_cons hpieces.ne_nil] at htext
    rcases List.append_eq_append_iff.mp htext with ⟨m, rfl, hm⟩ | ⟨m, rfl, hm⟩
    · cases m with
      | nil =>
        obtain ⟨-, rfl⟩ := List.cons.inj hm
        exact ⟨[piece], pieces, List.cons_ne_nil _ _, hpieces.ne_nil, rfl, by simp [join_comma_singleton], rfl⟩
      | cons a m =>
        obtain ⟨rfl, hrest⟩ := List.cons.inj hm
        rw [Level.after_append, hlevel, Level.after_cons] at hbefore
        obtain ⟨left, right, hleft, hright, rfl, rfl, rfl⟩ := ih hrest hbefore
        exact ⟨piece :: left, right, List.cons_ne_nil _ _, hright, rfl, (join_comma_cons hleft).symm, rfl⟩
    · cases m with
      | nil =>
        obtain ⟨-, rfl⟩ := List.cons.inj hm
        exact ⟨[before ++ []], pieces, List.cons_ne_nil _ _, hpieces.ne_nil, rfl, by simp [join_comma_singleton], rfl⟩
      | cons a m =>
        obtain ⟨rfl, -⟩ := List.cons.inj hm
        exact absurd hbefore (h before m rfl)

theorem OuterCut.isJoint_iff (h : OuterCut level pieces) (htext : join [','] pieces = before ++ ',' :: behind) :
    level.after before = (0, .code) ↔ IsJoint pieces before behind := by
  refine ⟨h.isJoint htext, ?_⟩
  rintro ⟨left, right, hleft, hright, rfl, rfl, -⟩
  exact h.after_join hleft hright

theorem Mode.IsProper.after {mode : Mode} (hm : mode.IsProper) (text : List Char) : (mode.after text).IsProper := by
  induction text generalizing mode with
  | nil => exact hm
  | cons c text ih => exact ih (hm.next c)

theorem isLevel_of_isBlankLine (hw : isBlankLine w = true) : IsLevel w :=
  isLevel_of_forall fun c hc ↦ .inl (isPlain_of_isBlank (isBlank_of_mem hw c hc))

theorem Level.eq_of_after_blank (hm : level.2.IsProper) (hw : isBlankLine w = true) (h : level.after w = (0, .code)) :
    level = (0, .code) := by
  induction w generalizing level with
  | nil => exact h
  | cons c w ih =>
    simp only [isBlankLine, List.all_cons, Bool.and_eq_true] at hw
    have hplain := isPlain_of_isBlank hw.1
    obtain ⟨hdepth, hmode⟩ := Prod.mk.inj (ih (hm.next c) hw.2 h)
    obtain ⟨depth, mode⟩ := level
    obtain rfl := Mode.eq_code_of_next hm hplain.1 hmode
    rw [hplain.bracketDepth_eq] at hdepth
    exact Prod.ext hdepth rfl

theorem Level.after_trim (h : Level.after (0, .code) text = (0, .code)) :
    Level.after (0, .code) (trim text) = (0, .code) := by
  obtain ⟨w, w', hw, hw', htext⟩ := exists_eq_append_trim text
  rw [htext, Level.after_append, isLevel_of_isBlankLine hw, Level.after_append] at h
  refine Level.eq_of_after_blank ?_ hw' h
  rw [Level.after_snd]
  exact Mode.isProper_code.after _

theorem Uncut.trim (h : Uncut (0, .code) text) : Uncut (0, .code) (trim text) := by
  obtain ⟨w, w', hw, -, htext⟩ := exists_eq_append_trim text
  intro front rest htrim
  have hbehind : text = (w ++ front) ++ ',' :: (rest ++ w') := by
    rw [htext, htrim]
    simp
  have hlevel := h _ _ hbehind
  rwa [Level.after_append, isLevel_of_isBlankLine hw] at hlevel

theorem OuterCut.map {f : List Char → List Char} (huncut : ∀ {s}, Uncut (0, .code) s → Uncut (0, .code) (f s))
    (hlevel : ∀ {s}, Level.after (0, .code) s = (0, .code) → Level.after (0, .code) (f s) = (0, .code))
    (h : OuterCut (0, .code) pieces) : OuterCut (0, .code) (pieces.map f) := by
  generalize hstart : ((0, .code) : Level) = level at h
  induction h with
  | last h =>
    subst hstart
    exact .last (huncut h)
  | cons h hnext hpieces ih =>
    subst hstart
    exact .cons (huncut h) (hlevel hnext) (ih rfl)

theorem OuterCut.map_trim (h : OuterCut (0, .code) pieces) : OuterCut (0, .code) (pieces.map trim) :=
  h.map Uncut.trim Level.after_trim

theorem OuterCut.map_cons_blank (h : OuterCut (0, .code) pieces) : OuterCut (0, .code) (pieces.map (' ' :: ·)) :=
  h.map (fun h ↦ uncut_cons.mpr ⟨fun hcomma ↦ absurd hcomma.1 (by decide), h⟩) fun h ↦ h

theorem OuterCut.of_concat (h : OuterCut level (front ++ [piece])) (hfront : front ≠ []) : OuterCut level front := by
  induction front generalizing level with
  | nil => exact absurd rfl hfront
  | cons first front ih =>
    obtain ⟨hfirst, hlevel, hrest⟩ := (outerCut_cons (by simp)).mp h
    by_cases hnil : front = []
    · rw [hnil]
      exact .last hfirst
    · exact .cons hfirst hlevel (ih hrest hnil)

theorem map_trim_blank (htrim : ∀ piece ∈ pieces, trim piece = piece) : (pieces.map (' ' :: ·)).map trim = pieces := by
  have hblank : isBlankLine [' '] = true := by decide
  rw [List.map_map, List.map_congr_left, List.map_id]
  intro piece hpiece
  exact (trim_append_of_isBlankLine hblank piece).trans (htrim piece hpiece)

theorem OuterCut.splitArguments_join (h : OuterCut (0, .code) pieces) (htrim : ∀ piece ∈ pieces, trim piece = piece)
    (hlast : pieces.getLast? ≠ some []) : splitArguments (join ", ".toList pieces) = pieces := by
  obtain ⟨first, rest, rfl⟩ := List.exists_cons_of_ne_nil h.ne_nil
  obtain ⟨hfirst, hrest⟩ := List.forall_mem_cons.mp htrim
  have hcut : OuterCut (0, .code) (first :: rest.map (' ' :: ·)) := by
    by_cases hnil : rest = []
    · rwa [hnil, List.map_nil, ← hnil]
    · obtain ⟨huncut, hlevel, hcut⟩ := (outerCut_cons hnil).mp h
      exact .cons huncut hlevel hcut.map_cons_blank
  rw [splitArguments, join_blank, hcut.segments_join, List.map_cons, hfirst, map_trim_blank hrest, dropEmptyLast,
    if_neg hlast]

theorem Nested.after_eq {depth : Nat} {mode : Mode} (h : Nested depth mode text) :
    Level.after (depth, mode) text = (0, .code) := by
  induction text generalizing depth mode with
  | nil =>
    obtain ⟨rfl, rfl⟩ := nested_nil.mp h
    rfl
  | cons c text ih => exact ih (nested_cons.mp h).2

theorem Undivided.uncut {depth : Nat} {mode : Mode} (h : Undivided depth mode text) : Uncut (depth, mode) text := by
  intro front rest htext hlevel
  have hlength := one_lt_length_segments_iff.mpr ⟨front, rest, htext, hlevel⟩
  rw [h.whole] at hlength
  exact Nat.lt_irrefl 1 hlength

theorem OuterCut.append (hfront : ∀ arg ∈ front, Undivided 0 .code arg) (h : OuterCut (0, .code) pieces) :
    OuterCut (0, .code) (front ++ pieces) := by
  induction front with
  | nil => exact h
  | cons arg front ih =>
    obtain ⟨harg, hfront⟩ := List.forall_mem_cons.mp hfront
    exact .cons harg.uncut harg.nested.after_eq (ih hfront)

theorem splitArguments_join (h : ∀ arg ∈ pieces, IsArgument arg) :
    splitArguments (join ", ".toList pieces) = pieces := by
  by_cases hnil : pieces = []
  · rw [hnil]
    rfl
  · have hcut : OuterCut (0, .code) (pieces ++ [[]]) :=
      .append (fun arg harg ↦ (h arg harg).undivided) (.last (uncut_nil _))
    refine (hcut.of_concat hnil).splitArguments_join (fun arg harg ↦ (h arg harg).trimmed) fun hlast ↦ ?_
    exact (h [] (List.mem_of_getLast? hlast)).nonempty rfl

theorem splitArguments_join_comma (hpieces : pieces ≠ []) (h : ∀ arg ∈ pieces, IsArgument arg) :
    splitArguments (join ", ".toList pieces ++ [',']) = pieces := by
  obtain ⟨first, rest, rfl⟩ := List.exists_cons_of_ne_nil hpieces
  obtain ⟨hfirst, hrest⟩ := List.forall_mem_cons.mp h
  have hblank : ∀ c ∈ [' '], IsPlain c := isPlain_of_isBlankLine (by decide)
  have hcut : OuterCut (0, .code) (first :: rest.map (' ' :: ·) ++ [[]]) := by
    refine .append (List.forall_mem_cons.mpr ⟨hfirst.undivided, List.forall_mem_map.mpr fun arg harg ↦ ?_⟩)
      (.last (uncut_nil _))
    exact (undivided_plain_append hblank).mpr (hrest arg harg).undivided
  rw [join_blank, ← join_comma_concat (List.cons_ne_nil _ _), splitArguments, hcut.segments_join, List.map_append,
    List.map_cons, hfirst.trimmed, map_trim_blank fun arg harg ↦ (hrest arg harg).trimmed]
  exact dropEmptyLast_concat_nil _

theorem splitArguments_of_segments (h : segments 0 .code text = front ++ [piece]) :
    splitArguments text = front.map trim ++ if isBlankLine piece then [] else [trim piece] := by
  rw [splitArguments, h, List.map_append, List.map_singleton]
  by_cases hblank : isBlankLine piece = true
  · rw [if_pos hblank, trim_eq_nil_iff.mpr hblank, dropEmptyLast_concat_nil, List.append_nil]
  · have hlast : some (trim piece) ≠ some [] := fun hnil ↦ hblank (trim_eq_nil_iff.mp (Option.some.inj hnil))
    rw [if_neg hblank, dropEmptyLast, List.getLast?_concat, if_neg hlast]

/-- Nothing of the arguments is lost but the commas that join them, the blanks around them and a blank last one, and
they are found again when they are joined. -/
theorem splitArguments_outerCommas (args : List Char) :
    (∃ pieces front last, pieces = front ++ [last] ∧ join [','] pieces = args ∧
      (∀ before behind, args = before ++ ',' :: behind →
        (Level.after (0, .code) before = (0, .code) ↔ IsJoint pieces before behind)) ∧
      splitArguments args = front.map trim ++ if isBlankLine last then [] else [trim last]) ∧
    ((splitArguments args).getLast? ≠ some [] →
      splitArguments (join ", ".toList (splitArguments args)) = splitArguments args) := by
  obtain ⟨hcut, hjoin⟩ := outerCut_segments 0 .code args
  obtain ⟨front, last, hpieces⟩ := List.eq_nil_or_concat _ |>.resolve_left hcut.ne_nil
  rw [List.concat_eq_append] at hpieces
  have hsplit := splitArguments_of_segments hpieces
  refine ⟨⟨segments 0 .code args, front, last, hpieces, hjoin, fun before behind hargs ↦ ?_, hsplit⟩, fun hlast ↦ ?_⟩
  · exact hcut.isJoint_iff (hjoin.trans hargs)
  · have htrim : ∀ piece ∈ splitArguments args, trim piece = piece := by
      intro piece hpiece
      obtain ⟨segment, -, rfl⟩ := List.mem_map.mp (mem_of_mem_dropEmptyLast hpiece)
      exact trim_trim segment
    by_cases hnil : splitArguments args = []
    · rw [hnil]
      rfl
    · refine OuterCut.splitArguments_join ?_ htrim hlast
      rw [hpieces] at hcut
      by_cases hblank : isBlankLine last = true
      · rw [if_pos hblank, List.append_nil] at hsplit
        rw [hsplit]
        exact (hcut.of_concat fun hfront ↦ hnil (by rw [hsplit, hfront, List.map_nil])).map_trim
      · rw [if_neg hblank, ← List.map_singleton, ← List.map_append] at hsplit
        rw [hsplit]
        exact hcut.map_trim

theorem splitArguments_outerCommas_unbalanced :
    (splitArguments ") f(a, b) , \"c, ".toList).getLast? ≠ some [] ∧
    splitArguments (join ", ".toList (splitArguments ") f(a, b) , \"c, ".toList)) =
      splitArguments ") f(a, b) , \"c, ".toList ∧
    ∃ pieces, join [','] pieces = ") f(a, b) , \"c, ".toList ∧ IsJoint pieces ") f(a, b) ".toList " \"c, ".toList := by
  have hlast : (splitArguments ") f(a, b) , \"c, ".toList).getLast? ≠ some [] := by decide
  obtain ⟨⟨pieces, _, _, -, hjoin, hcommas, -⟩, hstable⟩ := splitArguments_outerCommas ") f(a, b) , \"c, ".toList
  exact ⟨hlast, hstable hlast, pieces, hjoin, (hcommas _ _ rfl).mp (by decide)⟩

end

end AnswerKey.Code
