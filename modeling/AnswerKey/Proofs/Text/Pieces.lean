import AnswerKey.Proofs.Text.Indentation
import AnswerKey.Text.Search
import Mathlib.Data.List.DropRight

namespace AnswerKey.Text

theorem trimStart_subset (line : Line) : trimStart line ⊆ line := (List.dropWhile_suffix _).subset

theorem indentation_subset (line : Line) : indentation line ⊆ line := (List.takeWhile_prefix _).subset

theorem trim_subset (line : Line) : trim line ⊆ line := by
  intro c hc
  have hc := (List.dropWhile_suffix _).subset (List.mem_reverse.mp hc)
  exact trimStart_subset line (List.mem_reverse.mp hc)

theorem trimEnd_eq_rdropWhile (line : Line) : trimEnd line = line.rdropWhile isBlank := rfl

theorem exists_eq_trimEnd_append (line : Line) : ∃ w, isBlankLine w = true ∧ line = trimEnd line ++ w := by
  refine ⟨(line.reverse.takeWhile isBlank).reverse, ?_, ?_⟩
  · rw [isBlankLine, List.all_reverse]
    exact List.all_takeWhile
  · rw [trimEnd, ← List.reverse_append, List.takeWhile_append_dropWhile, List.reverse_reverse]

theorem exists_eq_append_trim (line : Line) :
    ∃ w w', isBlankLine w = true ∧ isBlankLine w' = true ∧ line = w ++ (trim line ++ w') := by
  obtain ⟨w', hw', htrim⟩ := exists_eq_trimEnd_append (trimStart line)
  refine ⟨indentation line, w', List.all_takeWhile, hw', ?_⟩
  rw [trim, ← htrim, indentation_append_trimStart]

theorem trim_append_of_isBlankLine {w : Line} (hw : isBlankLine w = true) (line : Line) :
    trim (w ++ line) = trim line := by
  rw [trim, trimStart_append hw, trim]

theorem trim_eq_self {line : Line} (hfirst : ∀ c ∈ line.head?, isBlank c = false)
    (hlast : ∀ c ∈ line.getLast?, isBlank c = false) : trim line = line := by
  have hdrop {line : Line} (h : ∀ c ∈ line.head?, isBlank c = false) : line.dropWhile isBlank = line := by
    cases line with
    | nil => rfl
    | cons c line => exact List.dropWhile_cons_of_neg (by simp [h c rfl])
  rw [trim, trimStart, hdrop hfirst, trimEnd, hdrop (by simpa using hlast), List.reverse_reverse]

theorem mem_trim_of_mem {line : Line} {c : Char} (h : c ∈ line) : isBlank c = true ∨ c ∈ trim line := by
  obtain ⟨w, w', hw, hw', heq⟩ := exists_eq_append_trim line
  rw [heq] at h
  rcases List.mem_append.mp h with h | h
  · exact .inl (isBlank_of_mem hw c h)
  · rcases List.mem_append.mp h with h | h
    · exact .inr h
    · exact .inl (isBlank_of_mem hw' c h)

theorem trim_eq_nil_iff {line : Line} : trim line = [] ↔ isBlankLine line = true := by
  constructor
  · intro h
    obtain ⟨w, w', hw, hw', heq⟩ := exists_eq_append_trim line
    rw [heq, h, List.nil_append, isBlankLine_append hw]
    exact hw'
  · intro h
    rw [← List.append_nil line, trim_append_of_isBlankLine h]
    rfl

theorem trim_trim (line : Line) : trim (trim line) = trim line := by
  have hstart : trimStart (trim line) = trim line := by
    rw [trimStart, List.dropWhile_eq_self_iff]
    intro hpos hblank
    have hprefix : trim line <+: trimStart line := List.rdropWhile_prefix _ _
    obtain ⟨rest, hrest⟩ := hprefix
    have hne : trimStart line ≠ [] := by
      rw [← hrest]
      exact List.append_ne_nil_of_left_ne_nil (List.length_pos_iff.mp hpos) _
    have hhead : (trim line)[0] = (trimStart line).head hne := by
      simp only [← hrest, List.head_eq_getElem, List.getElem_append_left hpos]
    have hfirst : isBlank ((trimStart line).head hne) = false := List.head_dropWhile_not isBlank hne
    rw [hhead, hfirst] at hblank
    cases hblank
  calc trim (trim line) = trimEnd (trim line) := by rw [trim, hstart]
    _ = trim line := List.rdropWhile_idempotent isBlank (trimStart line)

theorem cut?_append {a : Char} {front : List Char} (h : a ∉ front) (piece text : List Char) :
    cut? (a :: piece) (front ++ text) = (cut? (a :: piece) text).map fun (w, rest) ↦ (front ++ w, rest) := by
  induction front with
  | nil => simp
  | cons c front ih =>
    rw [List.mem_cons, not_or] at h
    rw [List.cons_append, cut?, after?, if_neg h.1, ih h.2, Option.map_map]
    rfl

/-- What an occurrence cannot begin in is kept when occurrences are exchanged. -/
theorem replace_append {a : Char} {front : List Char} (h : a ∉ front) (piece new text : List Char) :
    replace (a :: piece) new (front ++ text) = front ++ replace (a :: piece) new text := by
  have hnonempty : ¬ (a :: piece).isEmpty = true := by simp
  have hcut := cut?_append h piece text
  rw [replace, if_neg hnonempty, hcut]
  conv_rhs => rw [replace, if_neg hnonempty]
  cases cut? (a :: piece) text with
  | none => rfl
  | some found => simp

theorem after?_append_cons {c : Char} {piece : List Char} (hc : c ∉ piece) (text behind : List Char) :
    after? piece (text ++ c :: behind) = (after? piece text).map (· ++ c :: behind) := by
  induction piece generalizing text with
  | nil => rfl
  | cons a piece ih =>
    rw [List.mem_cons, not_or] at hc
    cases text with
    | nil => exact if_neg (Ne.symm hc.1)
    | cons b text =>
      simp only [List.cons_append, after?]
      split
      · exact ih hc.2 text
      · rfl

theorem cut?_append_cons {a c : Char} {piece : List Char} (hc : c ∉ a :: piece) (text behind : List Char) :
    cut? (a :: piece) (text ++ c :: behind) =
      match cut? (a :: piece) text with
      | some (front, rest) => some (front, rest ++ c :: behind)
      | none => (cut? (a :: piece) behind).map fun (front, rest) ↦ (text ++ c :: front, rest) := by
  induction text with
  | nil =>
    have hnone : after? (a :: piece) (c :: behind) = none := if_neg (List.ne_of_not_mem_cons hc).symm
    rw [List.nil_append]
    conv_lhs => rw [cut?, hnone]
    rfl
  | cons b text ih =>
    have hafter := after?_append_cons hc (b :: text) behind
    rw [List.cons_append] at hafter
    rw [List.cons_append, cut?, hafter, cut?]
    cases after? (a :: piece) (b :: text) with
    | some rest => rfl
    | none =>
      rw [Option.map_none, ih]
      cases cut? (a :: piece) text with
      | some found => rfl
      | none => exact Option.map_map _ _ _

theorem replace_eq {piece : List Char} (h : piece ≠ []) (new text : List Char) : replace piece new text =
    match cut? piece text with
    | some (front, rest) => front ++ new ++ replace piece new rest
    | none => text := by
  rw [replace, if_neg (by simpa using h)]
  split <;> simp_all

theorem replace_append_cons {a c : Char} {piece : List Char} (hc : c ∉ a :: piece) (new text behind : List Char) :
    replace (a :: piece) new (text ++ c :: behind) =
      replace (a :: piece) new text ++ c :: replace (a :: piece) new behind := by
  have hne : a :: piece ≠ [] := List.cons_ne_nil a piece
  induction hlength : text.length using Nat.strong_induction_on generalizing text with
  | _ n ih =>
    subst hlength
    rw [replace_eq hne new (text ++ c :: behind), cut?_append_cons hc, replace_eq hne new text]
    cases hcut : cut? (a :: piece) text with
    | some found =>
      obtain ⟨front, rest⟩ := found
      have hlt : rest.length < text.length := by
        rw [length_of_cut? hcut, List.length_cons]
        omega
      simp only [ih _ hlt rest rfl, List.append_assoc]
    | none =>
      dsimp only
      rw [replace_eq hne new behind]
      cases cut? (a :: piece) behind with
      | some found => simp
      | none => rfl

theorem replace_between {a c : Char} {piece front behind : List Char} (hfront : a ∉ front) (hc : c ∉ a :: piece)
    (hbehind : a ∉ behind) (new middle : List Char) : replace (a :: piece) new (front ++ (middle ++ c :: behind)) =
      front ++ (replace (a :: piece) new middle ++ c :: behind) := by
  have hkept := replace_append hbehind piece new []
  have hempty : replace (a :: piece) new [] = [] := replace_eq (List.cons_ne_nil a piece) new []
  rw [List.append_nil, hempty, List.append_nil] at hkept
  rw [replace_append hfront, replace_append_cons hc, hkept]

/-- In lines the occurrences are exchanged line by line. -/
theorem replace_lines {a : Char} {piece : List Char} (hc : '\n' ∉ a :: piece) (new : List Char) (lines : List Line) :
    replace (a :: piece) new (lines.flatMap (· ++ ['\n'])) =
      (lines.map (replace (a :: piece) new)).flatMap (· ++ ['\n']) := by
  induction lines with
  | nil => exact replace_eq (List.cons_ne_nil a piece) new []
  | cons line lines ih =>
    rw [List.flatMap_cons, List.append_assoc, List.singleton_append, replace_append_cons hc, ih, List.map_cons,
      List.flatMap_cons, List.append_assoc, List.singleton_append]

theorem replace_self {piece : List Char} (h : piece ≠ []) (new : List Char) : replace piece new piece = new := by
  obtain ⟨a, piece, rfl⟩ := List.exists_cons_of_ne_nil h
  have hcut : cut? (a :: piece) (a :: piece) = some ([], []) := by
    have hafter := after?_append (a :: piece) []
    rw [List.append_nil] at hafter
    rw [cut?, hafter]
  rw [replace_eq h, hcut]
  dsimp only
  rw [replace_eq h, List.nil_append]
  exact List.append_nil new

theorem replace_subset (piece new text : List Char) : replace piece new text ⊆ new ++ text := by
  induction hlength : text.length using Nat.strong_induction_on generalizing text with
  | _ n ih =>
    subst hlength
    by_cases hne : piece = []
    · rw [replace, if_pos (by simp [hne])]
      exact List.subset_append_right new text
    rw [replace_eq hne]
    cases hcut : cut? piece text with
    | none => exact List.subset_append_right new text
    | some found =>
      obtain ⟨front, rest⟩ := found
      have hlt : rest.length < text.length := by
        have := List.length_pos_iff.mpr hne
        rw [length_of_cut? hcut]
        omega
      have hrest := ih _ hlt rest rfl
      rw [cut?_eq_some hcut]
      intro c hc
      have hrest := @hrest c
      simp only [List.mem_append] at hc hrest ⊢
      tauto

/-- Exchange leaves nothing as it was but a text without occurrences, if what is put in their place differs from them
whatever stands behind. -/
theorem replace_eq_self_iff {piece new text : List Char} (hne : piece ≠ []) (hnew : ∀ s t, new ++ s ≠ piece ++ t) :
    replace piece new text = text ↔ contains text piece = false := by
  rw [replace_eq hne, contains]
  cases hcut : cut? piece text with
  | none => simp
  | some found =>
    obtain ⟨front, rest⟩ := found
    simp only [Option.isSome_some, Bool.true_eq_false, iff_false]
    rw [cut?_eq_some hcut, List.append_assoc, List.append_assoc, List.append_cancel_left_eq]
    exact hnew _ _

theorem contains_iff {piece text : List Char} : contains text piece = true ↔ piece <:+: text := by
  constructor
  · intro h
    obtain ⟨⟨front, rest⟩, hcut⟩ := Option.isSome_iff_exists.mp h
    exact ⟨front, rest, (cut?_eq_some hcut).symm⟩
  · rintro ⟨front, rest, rfl⟩
    induction front with
    | nil =>
      have hafter : after? piece (piece ++ rest) = some rest := after?_append piece rest
      cases piece with
      | nil => cases rest <;> rfl
      | cons a piece =>
        rw [List.nil_append, contains, List.cons_append, cut?, ← List.cons_append, hafter]
        rfl
    | cons c front ih =>
      rw [List.append_assoc, List.cons_append, contains, cut?]
      rw [List.append_assoc, contains] at ih
      split
      · rfl
      · rw [Option.isSome_map]
        exact ih

/-- A piece without blanks is found just as well when the blanks at the end are gone. -/
theorem isInfix_trimEnd_iff {piece : List Char} (hpiece : ∀ c ∈ piece, isBlank c = false) (text : Line) :
    piece <:+: trimEnd text ↔ piece <:+: text := by
  obtain ⟨w, hw, htext⟩ := exists_eq_trimEnd_append text
  have hempty {s : List Char} (hs : s ⊆ w) (hs' : s ⊆ piece) : s = [] := by
    refine List.eq_nil_iff_forall_not_mem.mpr fun c hc ↦ ?_
    have hblank := isBlank_of_mem hw c (hs hc)
    rw [hpiece c (hs' hc)] at hblank
    cases hblank
  constructor
  · intro h
    rw [htext]
    exact h.trans (List.prefix_append _ _).isInfix
  · rintro ⟨u, v, h⟩
    rw [htext] at h
    rcases List.append_eq_append_iff.mp h with ⟨m, hfront, -⟩ | ⟨m, hfront, hrest⟩
    · exact ⟨u, m, hfront.symm⟩
    · have hm : m ⊆ w := hrest ▸ List.subset_append_left _ _
      rcases List.append_eq_append_iff.mp hfront with ⟨m', htrim, hpiece'⟩ | ⟨m', -, hm'⟩
      · have hnil : m = [] := hempty hm (hpiece' ▸ List.subset_append_right _ _)
        rw [hnil, List.append_nil] at hpiece'
        exact ⟨u, [], by rw [hpiece', List.append_nil, htrim]⟩
      · have hnil : piece = [] := hempty (fun c hc ↦ hm (hm' ▸ List.mem_append_right _ hc)) (List.Subset.refl _)
        rw [hnil]
        exact List.nil_infix

theorem before?_eq_some_iff {piece text front : List Char} :
    before? piece text = some front ↔ text = front ++ piece := by
  rw [before?, Option.map_eq_some_iff]
  constructor
  · rintro ⟨rest, hrest, rfl⟩
    rw [← List.reverse_reverse text, after?_eq_some_iff.mp hrest, List.reverse_append, List.reverse_reverse]
  · rintro rfl
    exact ⟨front.reverse, by rw [List.reverse_append, after?_append], List.reverse_reverse front⟩

theorem join_cons_cons (first second : List Char) (rest : List (List Char)) :
    join ", ".toList (first :: second :: rest) = first ++ ',' :: (' ' :: join ", ".toList (second :: rest)) := by
  simp [join, List.intercalate_cons_cons]

theorem join_comma_singleton (piece : List Char) : join [','] [piece] = piece := List.intercalate_singleton

theorem join_comma_cons {piece : List Char} {pieces : List (List Char)} (hpieces : pieces ≠ []) :
    join [','] (piece :: pieces) = piece ++ ',' :: join [','] pieces := by
  obtain ⟨next, rest, rfl⟩ := List.exists_cons_of_ne_nil hpieces
  simp [join, List.intercalate_cons_cons]

theorem join_comma_head (c : Char) (piece : List Char) (pieces : List (List Char)) :
    join [','] ((c :: piece) :: pieces) = c :: join [','] (piece :: pieces) := by
  cases pieces with
  | nil => rw [join_comma_singleton, join_comma_singleton]
  | cons next rest =>
    rw [join_comma_cons (List.cons_ne_nil _ _), join_comma_cons (List.cons_ne_nil _ _), List.cons_append]

theorem join_blank (first : List Char) (rest : List (List Char)) :
    join ", ".toList (first :: rest) = join [','] (first :: rest.map (' ' :: ·)) := by
  induction rest generalizing first with
  | nil => rw [List.map_nil, join_comma_singleton, join, List.intercalate_singleton]
  | cons next rest ih =>
    rw [join_cons_cons, ih, List.map_cons, join_comma_cons (List.cons_ne_nil _ _), join_comma_head]

theorem newline_not_mem_join {separator : List Char} {pieces : List (List Char)} (hs : '\n' ∉ separator)
    (h : ∀ piece ∈ pieces, '\n' ∉ piece) : '\n' ∉ join separator pieces := by
  unfold join
  induction pieces with
  | nil => simp
  | cons piece pieces ih =>
    obtain ⟨hpiece, hpieces⟩ := List.forall_mem_cons.mp h
    cases pieces with
    | nil => simpa using hpiece
    | cons next pieces => simpa [List.intercalate_cons_cons, hs, hpiece] using ih hpieces

end AnswerKey.Text
