import AnswerKey.Text.Lines

namespace AnswerKey.Text

variable {text front rest : List Char} {line : Line} {lines : List Line} {atLineFeed : Bool}

def EndsLine (text : List Char) : Prop := text = [] ∨ ∃ front, text = front ++ ['\n']

theorem consLine_cons {c : Char} (hc : c ≠ '\n') (hr : ¬ (c = '\r' ∧ atLineFeed = true)) :
    consLine c (atLineFeed, line :: lines) = (false, (c :: line) :: lines) := by
  rw [consLine, if_neg hc, if_neg hr]

theorem consLine_nil {c : Char} (hc : c ≠ '\n') (hr : ¬ (c = '\r' ∧ atLineFeed = true)) :
    consLine c (atLineFeed, []) = (false, [[c]]) := by
  rw [consLine, if_neg hc, if_neg hr]

/-- What the lines behind a character become with it. -/
inductive Conses (c : Char) : Bool × List Line → Bool × List Line → Prop
  | lineFeed {atLineFeed : Bool} {lines : List Line} (hc : c = '\n') : Conses c (atLineFeed, lines) (true, [] :: lines)
  | carriageReturn {lines : List Line} (hc : c = '\r') : Conses c (true, lines) (false, lines)
  | last {atLineFeed : Bool} (hc : c ≠ '\n') : Conses c (atLineFeed, []) (false, [[c]])
  | longer {atLineFeed : Bool} {line : Line} {lines : List Line} (hc : c ≠ '\n') :
      Conses c (atLineFeed, line :: lines) (false, (c :: line) :: lines)

theorem conses_consLine (c : Char) (state : Bool × List Line) : Conses c state (consLine c state) := by
  obtain ⟨atLineFeed, lines⟩ := state
  by_cases hc : c = '\n'
  · rw [hc]
    exact .lineFeed rfl
  by_cases hr : c = '\r' ∧ atLineFeed = true
  · obtain ⟨rfl, rfl⟩ := hr
    exact .carriageReturn rfl
  cases lines with
  | nil =>
    rw [consLine_nil hc hr]
    exact .last hc
  | cons line lines =>
    rw [consLine_cons hc hr]
    exact .longer hc

theorem consLine_ne_nil (c : Char) (h : lines ≠ []) : (consLine c (atLineFeed, lines)).2 ≠ [] := by
  have hstep := conses_consLine c (atLineFeed, lines)
  generalize consLine c (atLineFeed, lines) = next at hstep ⊢
  cases hstep with
  | lineFeed => exact List.cons_ne_nil _ _
  | carriageReturn => exact h
  | last => exact absurd rfl h
  | longer => exact List.cons_ne_nil _ _

theorem consLine_append (c : Char) (h : lines ≠ []) (more : List Line) :
    consLine c (atLineFeed, lines ++ more) =
      ((consLine c (atLineFeed, lines)).1, (consLine c (atLineFeed, lines)).2 ++ more) := by
  obtain ⟨line, lines, rfl⟩ := List.exists_cons_of_ne_nil h
  by_cases hc : c = '\n'
  · rw [hc]
    rfl
  by_cases hr : c = '\r' ∧ atLineFeed = true
  · rw [hr.1, hr.2]
    rfl
  · rw [List.cons_append, consLine_cons hc hr, consLine_cons hc hr]
    rfl

theorem foldr_consLine_ne_nil (front : List Char) (h : lines ≠ []) :
    (front.foldr consLine (atLineFeed, lines)).2 ≠ [] := by
  induction front with
  | nil => exact h
  | cons c front ih => exact consLine_ne_nil c ih

/-- The last line of a text is the only one that grows when more lines stand in front of it. -/
theorem foldr_consLine_append (atLineFeed : Bool) (front : List Char) (h : lines ≠ []) (more : List Line) :
    front.foldr consLine (atLineFeed, lines ++ more) =
      ((front.foldr consLine (atLineFeed, lines)).1, (front.foldr consLine (atLineFeed, lines)).2 ++ more) := by
  induction front with
  | nil => rfl
  | cons c front ih =>
    rw [List.foldr_cons, ih, consLine_append c (foldr_consLine_ne_nil front h)]
    rfl

theorem linesOf_append_newline (front rest : List Char) :
    linesOf (front ++ '\n' :: rest) = linesOf (front ++ ['\n']) ++ linesOf rest := by
  have h := foldr_consLine_append true front (List.cons_ne_nil [] []) (linesOf rest)
  simpa [linesOf, consLine] using congrArg Prod.snd h

theorem linesOf_append (h : EndsLine front) (rest : List Char) :
    linesOf (front ++ rest) = linesOf front ++ linesOf rest := by
  rcases h with rfl | ⟨front, rfl⟩
  · rfl
  · rw [List.append_assoc]
    exact linesOf_append_newline front rest

theorem foldr_consLine_of_not_mem (h : '\n' ∉ front) (line : Line) (lines : List Line) :
    front.foldr consLine (false, line :: lines) = (false, (front ++ line) :: lines) := by
  induction front with
  | nil => rfl
  | cons c front ih =>
    rw [List.mem_cons, not_or] at h
    rw [List.foldr_cons, ih h.2, consLine_cons (Ne.symm h.1) (by simp)]
    rfl

def dropReturn (line : Line) : Line := if line.getLast? = some '\r' then line.dropLast else line

theorem dropReturn_concat_return (line : Line) : dropReturn (line ++ ['\r']) = line := by
  simp [dropReturn]

theorem dropReturn_eq_self_iff : dropReturn line = line ↔ line.getLast? ≠ some '\r' := by
  unfold dropReturn
  split
  · next hreturn =>
    obtain ⟨front, rfl⟩ := List.getLast?_eq_some_iff.mp hreturn
    simp
  · next hreturn => exact ⟨fun _ ↦ hreturn, fun _ ↦ rfl⟩

theorem eq_dropReturn_or (line : Line) : line = dropReturn line ∨ line = dropReturn line ++ ['\r'] := by
  by_cases hreturn : line.getLast? = some '\r'
  · obtain ⟨front, rfl⟩ := List.getLast?_eq_some_iff.mp hreturn
    exact .inr (by rw [dropReturn_concat_return])
  · exact .inl (dropReturn_eq_self_iff.mpr hreturn).symm

theorem linesOf_line (h : '\n' ∉ text) : linesOf (text ++ ['\n']) = [dropReturn text] := by
  rcases List.eq_nil_or_concat text with rfl | ⟨front, c, rfl⟩
  · rfl
  rw [List.concat_eq_append] at h ⊢
  have hfront : '\n' ∉ front := fun hmem ↦ h (List.mem_append_left _ hmem)
  have hc : c ≠ '\n' := fun hc ↦ h (by simp [hc])
  by_cases hr : c = '\r'
  · subst hr
    rw [dropReturn_concat_return]
    simpa [linesOf, consLine] using congrArg Prod.snd (foldr_consLine_of_not_mem hfront [] [])
  · rw [dropReturn_eq_self_iff.mpr (by simp [hr])]
    simpa [linesOf, consLine, hc, hr] using
      congrArg Prod.snd (foldr_consLine_of_not_mem hfront [c] [])

theorem exists_linesOf_line (h : '\n' ∉ text) :
    ∃ line, linesOf (text ++ ['\n']) = [line] ∧ (text = line ∨ text = line ++ ['\r']) :=
  ⟨dropReturn text, linesOf_line h, eq_dropReturn_or text⟩

/-- Lines that are written out and read again are the same to a reader that passes over carriage returns. -/
theorem findSome?_linesOf {α : Type} {read? : Line → Option α} (hread : ∀ line, read? (line ++ ['\r']) = read? line)
    (h : ∀ line ∈ lines, '\n' ∉ line) :
    (linesOf (lines.flatMap (· ++ ['\n']))).findSome? read? = lines.findSome? read? := by
  induction lines with
  | nil => rfl
  | cons line lines ih =>
    obtain ⟨hline, hlines⟩ := List.forall_mem_cons.mp h
    obtain ⟨kept, hkept, hcases⟩ := exists_linesOf_line hline
    have hsame : read? line = read? kept := by
      rcases hcases with rfl | rfl
      · rfl
      · exact hread kept
    rw [List.flatMap_cons, linesOf_append (.inr ⟨line, rfl⟩), hkept, List.singleton_append, List.findSome?_cons,
      List.findSome?_cons, hsame, ih hlines]

theorem linesOf_of_not_mem (h : '\n' ∉ text) (hne : text ≠ []) : linesOf text = [text] := by
  obtain ⟨front, c, rfl⟩ := (List.eq_nil_or_concat text).resolve_left hne
  rw [List.concat_eq_append] at h ⊢
  rw [List.mem_append, not_or, List.mem_singleton] at h
  simpa [linesOf, consLine, Ne.symm h.2] using congrArg Prod.snd (foldr_consLine_of_not_mem h.1 [c] [])

theorem exists_of_append_eq_concat {α : Type} {word tail list : List α} {c : α} (hc : word.getLast? ≠ some c)
    (h : word ++ tail = list ++ [c]) : ∃ rest, list = word ++ rest ∧ tail = rest ++ [c] := by
  rcases List.eq_nil_or_concat tail with rfl | ⟨rest, d, rfl⟩
  · rw [List.append_nil] at h
    rw [h, List.getLast?_concat] at hc
    exact absurd rfl hc
  · rw [List.concat_eq_append, ← List.append_assoc] at h
    obtain ⟨rfl, hd⟩ := List.append_inj' h rfl
    exact ⟨rest, rfl, by rw [List.concat_eq_append, hd]⟩

theorem exists_linesOf_append {word : List Char} (hfeed : '\n' ∉ word) (hreturn : word.getLast? ≠ some '\r')
    (hne : word ≠ []) (text : List Char) : ∃ rest more, linesOf (word ++ text) = (word ++ rest) :: more := by
  by_cases htext : '\n' ∈ text
  · obtain ⟨begun, behind, rfl, hbegun⟩ := List.eq_append_cons_of_mem htext
    have hmem : '\n' ∉ word ++ begun := by simp [hfeed, hbegun]
    obtain ⟨line, hline, hcases⟩ := exists_linesOf_line hmem
    rw [← List.append_assoc, linesOf_append_newline, hline]
    rcases hcases with rfl | hconcat
    · exact ⟨begun, linesOf behind, rfl⟩
    · obtain ⟨rest, rfl, -⟩ := exists_of_append_eq_concat hreturn hconcat
      exact ⟨rest, linesOf behind, rfl⟩
  · have hmem : '\n' ∉ word ++ text := by simp [hfeed, htext]
    exact ⟨text, [], linesOf_of_not_mem hmem (by simp [hne])⟩

/-- Any text ends with a line that is not finished, possibly an empty one. -/
theorem exists_unfinished (text : List Char) : ∃ front rest, text = front ++ rest ∧ EndsLine front ∧ '\n' ∉ rest := by
  induction text with
  | nil => exact ⟨[], [], rfl, .inl rfl, List.not_mem_nil⟩
  | cons c text ih =>
    obtain ⟨front, rest, rfl, hfront, hrest⟩ := ih
    rcases hfront with rfl | ⟨front, rfl⟩
    · by_cases hc : c = '\n'
      · exact ⟨[c], rest, rfl, .inr ⟨[], by rw [hc]; rfl⟩, hrest⟩
      · exact ⟨[], c :: rest, rfl, .inl rfl, by simp [Ne.symm hc, hrest]⟩
    · exact ⟨c :: (front ++ ['\n']), rest, rfl, .inr ⟨c :: front, rfl⟩, hrest⟩

theorem head_of_atLineFeed (text : List Char) (h : (text.foldr consLine (false, [])).1 = true) :
    (linesOf text).head? = some [] := by
  cases text with
  | nil => contradiction
  | cons c text =>
    have hstep := conses_consLine c (text.foldr consLine (false, []))
    simp only [linesOf, List.foldr_cons] at h ⊢
    generalize text.foldr consLine (false, []) = state at hstep h ⊢
    generalize consLine c state = next at hstep h ⊢
    cases hstep with
    | lineFeed => rfl
    | carriageReturn | last | longer => contradiction

/-- The text begins with its first line, and all other lines come after a line feed. -/
theorem isPrefix_and_exists_of_lines (text : List Char) :
    (∀ line, (linesOf text).head? = some line → line <+: text) ∧
      ∀ line ∈ (linesOf text).tail, ∃ front rest, text = front ++ '\n' :: (line ++ rest) := by
  induction text with
  | nil => simp [linesOf]
  | cons c text ih =>
    have hstep := conses_consLine c (text.foldr consLine (false, []))
    have hfeed := head_of_atLineFeed text
    simp only [linesOf, List.foldr_cons] at ih hfeed ⊢
    generalize text.foldr consLine (false, []) = state at hstep ih hfeed ⊢
    generalize consLine c state = next at hstep ⊢
    obtain ⟨hhead, htail⟩ := ih
    have hshift : ∀ line ∈ state.2.tail, ∃ front rest, c :: text = front ++ '\n' :: (line ++ rest) := by
      intro line hline
      obtain ⟨front, rest, htext⟩ := htail line hline
      exact ⟨c :: front, rest, by rw [htext]; rfl⟩
    cases hstep with
    | @lineFeed _ lines hc =>
      refine ⟨fun line h ↦ Option.some.inj h ▸ List.nil_prefix, ?_⟩
      cases lines with
      | nil => exact List.forall_mem_nil _
      | cons first lines =>
        obtain ⟨rest, hrest⟩ := hhead first rfl
        exact List.forall_mem_cons.mpr ⟨⟨[], rest, by rw [hrest, hc]; rfl⟩, hshift⟩
    | carriageReturn =>
      exact ⟨fun line h ↦ Option.some.inj ((hfeed rfl).symm.trans h) ▸ List.nil_prefix, hshift⟩
    | last =>
      have hpiece : [c] <+: c :: text := ⟨text, rfl⟩
      exact ⟨fun line h ↦ Option.some.inj h ▸ hpiece, List.forall_mem_nil _⟩
    | @longer _ line lines =>
      have hpiece : c :: line <+: c :: text := (List.prefix_cons_inj c).mpr (hhead line rfl)
      exact ⟨fun line h ↦ Option.some.inj h ▸ hpiece, hshift⟩

theorem exists_of_mem_linesOf (h : line ∈ linesOf text) :
    ∃ front rest, EndsLine front ∧ text = front ++ (line ++ rest) := by
  obtain ⟨hhead, htail⟩ := isPrefix_and_exists_of_lines text
  obtain ⟨first, lines, hlines⟩ := List.exists_cons_of_ne_nil (List.ne_nil_of_mem h)
  rw [hlines] at h hhead htail
  rcases List.mem_cons.mp h with rfl | h
  · obtain ⟨rest, hrest⟩ := hhead line rfl
    exact ⟨[], rest, .inl rfl, hrest.symm⟩
  · obtain ⟨front, rest, rfl⟩ := htail line h
    exact ⟨front ++ ['\n'], rest, .inr ⟨front, rfl⟩, by rw [List.append_assoc]; rfl⟩

theorem isInfix_of_mem_linesOf (h : line ∈ linesOf text) : line <:+: text := by
  obtain ⟨front, rest, -, rfl⟩ := exists_of_mem_linesOf h
  exact ⟨front, rest, List.append_assoc _ _ _⟩

theorem not_mem_of_mem_linesOf (h : line ∈ linesOf text) : '\n' ∉ line := by
  induction text generalizing line with
  | nil => simp [linesOf] at h
  | cons c text ih =>
    have hstep := conses_consLine c (text.foldr consLine (false, []))
    simp only [linesOf, List.foldr_cons] at ih h
    generalize text.foldr consLine (false, []) = state at hstep ih h
    generalize consLine c state = next at hstep h
    cases hstep with
    | lineFeed =>
      rcases List.mem_cons.mp h with rfl | h
      · exact List.not_mem_nil
      · exact ih h
    | carriageReturn => exact ih h
    | last hc => simpa [List.mem_singleton.mp h] using Ne.symm hc
    | longer hc =>
      rcases List.mem_cons.mp h with rfl | h
      · simpa [Ne.symm hc] using ih List.mem_cons_self
      · exact ih (List.mem_cons_of_mem _ h)

section

variable {separator : Char}

theorem splitOn_ne_nil (separator : Char) (text : List Char) : splitOn separator text ≠ [] := by
  cases text with
  | nil => simp [splitOn]
  | cons c text =>
    simp only [splitOn]
    split
    · exact List.cons_ne_nil _ _
    · split <;> exact List.cons_ne_nil _ _

theorem splitOn_cons_separator (text : List Char) :
    splitOn separator (separator :: text) = [] :: splitOn separator text :=
  if_pos rfl

theorem splitOn_cons_of_ne {c : Char} {piece : List Char} {pieces : List (List Char)} (hc : c ≠ separator)
    (h : splitOn separator text = piece :: pieces) : splitOn separator (c :: text) = (c :: piece) :: pieces := by
  rw [splitOn, if_neg hc, h]

theorem splitOn_append_cons (front rest : List Char) :
    splitOn separator (front ++ separator :: rest) = splitOn separator front ++ splitOn separator rest := by
  induction front with
  | nil => exact splitOn_cons_separator rest
  | cons c front ih =>
    by_cases hc : c = separator
    · rw [hc, List.cons_append, splitOn_cons_separator, splitOn_cons_separator, ih, List.cons_append]
    · obtain ⟨piece, pieces, hpieces⟩ := List.exists_cons_of_ne_nil (splitOn_ne_nil separator front)
      rw [hpieces] at ih
      rw [List.cons_append, splitOn_cons_of_ne hc ih, splitOn_cons_of_ne hc hpieces]
      rfl

theorem splitOn_of_not_mem (h : separator ∉ text) : splitOn separator text = [text] := by
  induction text with
  | nil => rfl
  | cons c text ih =>
    rw [List.mem_cons, not_or] at h
    exact splitOn_cons_of_ne (Ne.symm h.1) (ih h.2)

theorem length_splitOn (text : List Char) : (splitOn separator text).length = text.count separator + 1 := by
  induction text with
  | nil => rfl
  | cons c text ih =>
    by_cases hc : c = separator
    · rw [hc, splitOn_cons_separator, List.length_cons, ih, List.count_cons_self]
    · obtain ⟨piece, pieces, hpieces⟩ := List.exists_cons_of_ne_nil (splitOn_ne_nil separator text)
      rw [splitOn_cons_of_ne hc hpieces, List.count_cons_of_ne hc, ← ih, hpieces, List.length_cons, List.length_cons]

theorem splitOn_lines (h : ∀ line ∈ lines, '\n' ∉ line) (rest : List Char) :
    splitOn '\n' (lines.flatMap (· ++ ['\n']) ++ rest) = lines ++ splitOn '\n' rest := by
  induction lines with
  | nil => rfl
  | cons line lines ih =>
    obtain ⟨hline, hlines⟩ := List.forall_mem_cons.mp h
    rw [List.flatMap_cons, List.append_assoc, List.append_assoc, List.singleton_append, splitOn_append_cons,
      splitOn_of_not_mem hline, ih hlines]
    rfl

/-- Behind a text that ends with a line feed come as many lines as it has line feeds. -/
theorem getElem?_splitOn_append (h : EndsLine front) (rest : List Char) (k : Nat) :
    (splitOn '\n' (front ++ rest))[front.count '\n' + k]? = (splitOn '\n' rest)[k]? := by
  rcases h with rfl | ⟨front, rfl⟩
  · simp
  · have hlength : (front ++ ['\n']).count '\n' = (splitOn '\n' front).length := by
      rw [length_splitOn, List.count_append, List.count_singleton_self]
    rw [hlength, List.append_assoc, List.singleton_append, splitOn_append_cons,
      List.getElem?_append_right (Nat.le_add_right _ k), Nat.add_sub_cancel_left]

theorem joinLines_append_newline (h : lines ≠ []) : joinLines lines ++ ['\n'] = lines.flatMap (· ++ ['\n']) := by
  obtain ⟨line, lines, rfl⟩ := List.exists_cons_of_ne_nil h
  unfold joinLines join
  clear h
  induction lines generalizing line with
  | nil => simp [List.intercalate_singleton]
  | cons next lines ih =>
    rw [List.intercalate_cons_cons, List.append_assoc, ih]
    rfl

theorem joinLines_concat (front : List Line) (last : Line) :
    joinLines (front ++ [last]) = front.flatMap (· ++ ['\n']) ++ last := by
  have hne : front ++ [last] ≠ [] := by simp
  have hended := joinLines_append_newline hne
  rw [List.flatMap_append, List.flatMap_singleton, ← List.append_assoc] at hended
  exact List.append_cancel_right hended

theorem splitOn_joinLines (h : ∀ line ∈ lines, '\n' ∉ line) (hne : lines ≠ []) :
    splitOn '\n' (joinLines lines) = lines := by
  have hended : splitOn '\n' (joinLines lines ++ ['\n']) = splitOn '\n' (joinLines lines) ++ [[]] :=
    splitOn_append_cons (joinLines lines) []
  rw [joinLines_append_newline hne, ← List.append_nil (lines.flatMap _), splitOn_lines h] at hended
  exact (List.append_cancel_right hended).symm

theorem joinLines_splitOn (text : List Char) : joinLines (splitOn '\n' text) = text := by
  induction text with
  | nil => rfl
  | cons c text ih =>
    obtain ⟨piece, pieces, hpieces⟩ := List.exists_cons_of_ne_nil (splitOn_ne_nil '\n' text)
    rw [hpieces] at ih
    by_cases hc : c = '\n'
    · rw [hc, splitOn_cons_separator, hpieces]
      exact congrArg ('\n' :: ·) ih
    · rw [splitOn_cons_of_ne hc hpieces, ← ih]
      cases pieces <;> rfl

theorem exists_linesOf_joinLines (h : '\n' ∉ line) (hne : line ≠ []) (lines : List Line) :
    ∃ first more, linesOf (joinLines (line :: lines)) = first :: more ∧ (line = first ∨ line = first ++ ['\r']) := by
  cases lines with
  | nil => exact ⟨line, [], by simpa [joinLines, join] using linesOf_of_not_mem h hne, .inl rfl⟩
  | cons next lines =>
    obtain ⟨first, hfirst, hcases⟩ := exists_linesOf_line h
    refine ⟨first, linesOf (joinLines (next :: lines)), ?_, hcases⟩
    rw [joinLines, join, List.intercalate_cons_cons, List.append_assoc, List.singleton_append, linesOf_append_newline,
      hfirst]
    rfl

end

section

variable {α : Type} {s t : List Char} {f : α → List Char} {items : List α}

theorem endsLine_append_of_getLast? (h : t.getLast? = some '\n') (s : List Char) : EndsLine (s ++ t) := by
  obtain ⟨front, rfl⟩ := List.getLast?_eq_some_iff.mp h
  exact .inr ⟨s ++ front, by rw [List.append_assoc]⟩

theorem EndsLine.append (hs : EndsLine s) (ht : EndsLine t) : EndsLine (s ++ t) := by
  rcases ht with rfl | ⟨front, rfl⟩
  · rwa [List.append_nil]
  · exact .inr ⟨s ++ front, by rw [List.append_assoc]⟩

theorem endsLine_flatMap (h : ∀ a ∈ items, EndsLine (f a)) : EndsLine (items.flatMap f) := by
  induction items with
  | nil => exact .inl rfl
  | cons a items ih =>
    obtain ⟨ha, hitems⟩ := List.forall_mem_cons.mp h
    exact ha.append (ih hitems)

theorem count_newline_flatMap (h : ∀ a ∈ items, (f a).count '\n' = 1) :
    (items.flatMap f).count '\n' = items.length := by
  induction items with
  | nil => rfl
  | cons a items ih =>
    obtain ⟨ha, hitems⟩ := List.forall_mem_cons.mp h
    rw [List.flatMap_cons, List.count_append, ha, ih hitems, List.length_cons, Nat.add_comm]

end

end AnswerKey.Text
