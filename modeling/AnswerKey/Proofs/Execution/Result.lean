import AnswerKey.Execution.Child
import AnswerKey.Proofs.Text.Lines
import AnswerKey.Proofs.Text.Utf8

namespace AnswerKey

open Text

def printed (text : List Char) : List UInt8 := utf8 (Launcher.sentinel.toList ++ text ++ ['\n'])

/-- What is printed after this output begins a line. -/
def AtLineStart (output : List UInt8) : Prop := output = [] ∨ ∃ front, output = front ++ [0x0A]

def IsResultLine (line : Line) : Prop := Launcher.sentinel.toList <+: line

instance : DecidablePred IsResultLine := fun line ↦ inferInstanceAs (Decidable (Launcher.sentinel.toList <+: line))

variable {output : List UInt8} {text rest front begun : List Char} {lines : List Line} {line : Line}
  {values : List Json}

theorem atLineStart_iff : AtLineStart output ↔ EndsLine (decode output) := by
  constructor
  · rintro (rfl | ⟨front, rfl⟩)
    · exact .inl rfl
    · exact .inr ⟨decode front, decode_append_cons front [] (by decide)⟩
  · rintro (h | ⟨front, h⟩)
    · by_contra hne
      exact decode_ne_nil (fun hnil ↦ hne (.inl hnil)) h
    · obtain ⟨front', rest, rfl, -, hrest⟩ := exists_of_decode_eq (c := '\n') (by decide) h
      obtain rfl : rest = [] := by
        by_contra hne
        exact decode_ne_nil hne hrest
      exact .inr ⟨front', rfl⟩

theorem sentinel_isAscii : ∀ c ∈ Launcher.sentinel.toList, IsAscii c := by
  have hall : (Launcher.sentinel.toList.all fun c ↦ decide (IsAscii c)) = true := by decide
  simpa using hall

theorem sentinel_ne_nil : Launcher.sentinel.toList ≠ [] := by decide

theorem sentinel_newline : '\n' ∉ Launcher.sentinel.toList := by decide

theorem sentinel_getLast? : Launcher.sentinel.toList.getLast? ≠ some '\r' := by decide

theorem decode_append_printed (output : List UInt8) (text : List Char) :
    decode (output ++ printed text) = decode output ++ (Launcher.sentinel.toList ++ text ++ ['\n']) :=
  decode_append_utf8_cons output (by decide) _

theorem after?_sentinel_eq_none_iff : after? Launcher.sentinel.toList line = none ↔ ¬ IsResultLine line := by
  constructor
  · rintro hnone ⟨payload, rfl⟩
    rw [after?_append] at hnone
    cases hnone
  · intro h
    cases hafter : after? Launcher.sentinel.toList line with
    | none => rfl
    | some payload => exact absurd ⟨payload, (after?_eq_some_iff.mp hafter).symm⟩ h

theorem payload?_eq_none_iff : payload? lines = none ↔ ∀ line ∈ lines, ¬ IsResultLine line := by
  simp only [payload?, List.findSome?_eq_none_iff, List.mem_reverse, after?_sentinel_eq_none_iff]

theorem payload?_append (front back : List Line) : payload? (front ++ back) = (payload? back).or (payload? front) := by
  simp only [payload?, List.reverse_append, List.findSome?_append]

theorem payload?_append_singleton (lines : List Line) (line : Line) :
    payload? (lines ++ [line]) = (after? Launcher.sentinel.toList line).or (payload? lines) := by
  rw [payload?_append, payload?, List.reverse_singleton, List.findSome?_singleton]

theorem payload?_linesOf_eq_none (h : ¬ Launcher.sentinel.toList <:+: text) : payload? (linesOf text) = none := by
  rw [payload?_eq_none_iff]
  intro line hline hresult
  exact h (hresult.isInfix.trans (isInfix_of_mem_linesOf hline))

theorem exists_linesOf_printed (begun : List Char) (hfront : EndsLine front) (hbegun : '\n' ∉ begun)
    (htext : '\n' ∉ text) :
    ∃ rest, linesOf (front ++ begun ++ (Launcher.sentinel.toList ++ text ++ ['\n'])) =
        linesOf front ++ [begun ++ (Launcher.sentinel.toList ++ rest)] ∧ (text = rest ∨ text = rest ++ ['\r']) := by
  have hmem : '\n' ∉ begun ++ (Launcher.sentinel.toList ++ text) := by
    simpa [hbegun, htext] using sentinel_newline
  obtain ⟨line, hline, hcases⟩ := exists_linesOf_line hmem
  have hlines : linesOf (front ++ begun ++ (Launcher.sentinel.toList ++ text ++ ['\n'])) = linesOf front ++ [line] := by
    rw [← hline, ← linesOf_append hfront]
    simp only [List.append_assoc]
  rcases hcases with rfl | hreturn
  · exact ⟨text, hlines, .inl rfl⟩
  · have hlast : (begun ++ Launcher.sentinel.toList).getLast? ≠ some '\r' := by
      rw [List.getLast?_append_of_ne_nil _ sentinel_ne_nil]
      exact sentinel_getLast?
    rw [← List.append_assoc] at hreturn
    obtain ⟨rest, rfl, rfl⟩ := exists_of_append_eq_concat hlast hreturn
    exact ⟨rest, by rw [hlines, List.append_assoc], .inr rfl⟩

theorem trim_append_return (text : List Char) : trim (text ++ ['\r']) = trim text := by
  have hend (line : Line) : trimEnd (line ++ ['\r']) = trimEnd line := by
    rw [trimEnd, List.reverse_append]
    rfl
  rw [trim, trimStart, List.dropWhile_append]
  split
  · next h => simp [trim, trimStart, List.isEmpty_iff.mp h, isBlank]
  · exact hend _

theorem collectedValues_of_atLineStart (ht : Json.parse? (trim text) = some (.array values)) (htext : '\n' ∉ text)
    (h : AtLineStart output) : collectedValues (output ++ printed text) = .ok values := by
  obtain ⟨rest, hlines, hrest⟩ := exists_linesOf_printed [] (atLineStart_iff.mp h) List.not_mem_nil htext
  have htrim : trim rest = trim text := by
    rcases hrest with rfl | rfl
    · rfl
    · exact (trim_append_return rest).symm
  rw [List.append_nil] at hlines
  rw [collectedValues, decode_append_printed, hlines, payload?_append_singleton, List.nil_append, after?_append,
    Option.some_or]
  simp only [htrim, ht]

theorem collectedValues_alone (ht : Json.parse? (trim text) = some (.array values)) (htext : '\n' ∉ text) :
    collectedValues (printed text) = .ok values := by
  have hvalues : collectedValues ([] ++ printed text) = .ok values := collectedValues_of_atLineStart ht htext (.inl rfl)
  exact hvalues

theorem length_sentinel : Launcher.sentinel.toList.length = 20 := by decide

/-- Where the sentinel overlaps another one before it, that leaves one or two characters to the overlap. -/
theorem sentinel_overlap : ∀ n ≤ 20, 0 < n →
    Launcher.sentinel.toList.drop n = Launcher.sentinel.toList.take (20 - n) →
      (Launcher.sentinel.toList.drop (20 - n)).head? = some '_' ∨
        (Launcher.sentinel.toList.drop (20 - n)).head? = some 'S' := by
  decide +kernel

/-- A line that was begun with something else begins with the sentinel only where the two overlap, so that what
follows is no value. -/
theorem exists_of_begun (hne : begun ≠ []) (hfree : ¬ Launcher.sentinel.toList <:+: begun)
    (h : begun ++ (Launcher.sentinel.toList ++ text) = Launcher.sentinel.toList ++ rest) :
    rest.head? = some '_' ∨ rest.head? = some 'S' := by
  rcases List.append_eq_append_iff.mp h with ⟨m, hs, hm⟩ | ⟨m, hb, -⟩
  · have hlength : begun.length + m.length = 20 := by rw [← List.length_append, ← hs, length_sentinel]
    have hdrop : Launcher.sentinel.toList.drop begun.length = m := by rw [hs, List.drop_left]
    have htake : Launcher.sentinel.toList.take (20 - begun.length) = m := by
      have := congrArg (List.take m.length) hm
      rw [List.take_append_of_le_length (by rw [length_sentinel]; omega), List.take_left] at this
      rwa [show 20 - begun.length = m.length by omega]
    have hrest : rest = Launcher.sentinel.toList.drop (20 - begun.length) ++ text := by
      have := congrArg (List.drop m.length) hm
      rw [List.drop_append_of_le_length (by rw [length_sentinel]; omega), List.drop_left] at this
      rw [← this, show 20 - begun.length = m.length by omega]
    have hhead := sentinel_overlap begun.length (by omega) (List.length_pos_iff.mpr hne) (hdrop.trans htake.symm)
    rw [hrest, List.head?_append]
    rcases hhead with hhead | hhead <;> simp [hhead]
  · exact absurd ⟨[], m, by simp [hb]⟩ hfree

theorem head?_trim {c : Char} (h : text.head? = some c) (hc : isBlank c = false) : (trim text).head? = some c := by
  obtain ⟨rest, rfl⟩ := List.head?_eq_some_iff.mp h
  rw [trim, trimStart, List.dropWhile_cons_of_neg (by simp [hc]), trimEnd, List.reverse_cons, List.head?_reverse,
    List.dropWhile_append]
  split
  · rw [List.dropWhile_cons_of_neg (by simp [hc])]
    rfl
  · exact List.getLast?_concat

theorem parse?_eq_none (h : text.head? = some '_' ∨ text.head? = some 'S') : Json.parse? (trim text) = none := by
  rcases h with hhead | hhead
  · obtain ⟨rest, hrest⟩ := List.head?_eq_some_iff.mp (head?_trim hhead (by decide))
    rw [hrest]
    rfl
  · obtain ⟨rest, hrest⟩ := List.head?_eq_some_iff.mp (head?_trim hhead (by decide))
    rw [hrest]
    rfl

theorem collectedValues_of_begun (hfree : ¬ utf8 Launcher.sentinel.toList <:+: output) (htext : '\n' ∉ text)
    (h : ¬ AtLineStart output) :
    ∃ reason, collectedValues (output ++ printed text) = .error (.malformedOutput reason) := by
  have hfree : ¬ Launcher.sentinel.toList <:+: decode output := fun hs ↦ hfree (utf8_isInfix sentinel_isAscii hs)
  obtain ⟨front, begun, hsplit, hfront, hbegun⟩ := exists_unfinished (decode output)
  have hne : begun ≠ [] := by
    rintro rfl
    rw [List.append_nil] at hsplit
    exact h (atLineStart_iff.mpr (hsplit ▸ hfront))
  rw [hsplit] at hfree
  have hnone : payload? (linesOf front) = none :=
    payload?_linesOf_eq_none fun hs ↦ hfree (hs.trans (List.prefix_append front begun).isInfix)
  obtain ⟨rest, hlines, -⟩ := exists_linesOf_printed begun hfront hbegun htext
  rw [collectedValues, decode_append_printed, hsplit, hlines, payload?_append_singleton, hnone, Option.or_none]
  cases hafter : after? Launcher.sentinel.toList (begun ++ (Launcher.sentinel.toList ++ rest)) with
  | none => exact ⟨_, rfl⟩
  | some payload =>
    have hbegun_free : ¬ Launcher.sentinel.toList <:+: begun :=
      fun hs ↦ hfree (hs.trans (List.suffix_append front begun).isInfix)
    simp only [parse?_eq_none (exists_of_begun hne hbegun_free (after?_eq_some_iff.mp hafter))]
    exact ⟨_, rfl⟩

/-- After any output the values printed as JSON text on one line are read back if that line is all theirs. They are lost
if the script has begun the line, unless it has printed the sentinel itself. -/
theorem collectedValues_printed (output : List UInt8) (ht : Json.parse? (trim text) = some (.array values))
    (htext : '\n' ∉ text) :
    (AtLineStart output → collectedValues (output ++ printed text) = .ok values) ∧
      (¬ AtLineStart output → ¬ utf8 Launcher.sentinel.toList <:+: output →
        ∃ reason, collectedValues (output ++ printed text) = .error (.malformedOutput reason)) :=
  ⟨collectedValues_of_atLineStart ht htext, fun h hfree ↦ collectedValues_of_begun hfree htext h⟩

theorem collectedValues_printed_one :
    collectedValues (utf8 "log\n".toList ++ printed "[1]".toList) = .ok [.int 1] ∧
      ∃ reason, collectedValues (utf8 "log".toList ++ printed "[1]".toList) = .error (.malformedOutput reason) := by
  have ht : Json.parse? (trim "[1]".toList) = some (.array [.int 1]) := rfl
  refine ⟨(collectedValues_printed _ ht (by decide)).1 (.inr ⟨utf8 "log".toList, by decide⟩),
    (collectedValues_printed _ ht (by decide)).2 ?_ (by decide)⟩
  rintro (h | ⟨front, h⟩)
  · exact absurd h (by decide)
  · have := congrArg List.getLast? h
    rw [List.getLast?_concat] at this
    exact absurd this (by decide)

theorem result_lost_on_begun_line : Json.parse? "[1]".toList = some (.array [.int 1]) ∧
    ¬ utf8 Launcher.sentinel.toList <:+: utf8 "1".toList ∧
    collectedValues (utf8 "1".toList ++ printed "[1]".toList) =
      .error (.malformedOutput "no result line in runtime output") :=
  ⟨rfl, by decide, rfl⟩

end AnswerKey
