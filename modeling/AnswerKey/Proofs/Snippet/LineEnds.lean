import AnswerKey.Proofs.Text.Lines
import AnswerKey.Script.Basic
import AnswerKey.Snippet.Functions
import AnswerKey.Snippet.Outputs
import AnswerKey.Snippet.ReturnType

namespace AnswerKey

open Text

namespace Text

variable {text ended other : List Char} {line last : Line} {lines front : List Line}

/-- A text with carriage returns put in front of some of its line feeds. -/
inductive Reended : List Char → List Char → Prop
  | nil : Reended [] []
  | same (c : Char) {text other : List Char} (h : Reended text other) : Reended (c :: text) (c :: other)
  | returned {text other : List Char} (h : Reended text other) : Reended ('\n' :: text) ('\r' :: '\n' :: other)

/-- A text as it is, or with a line feed behind a last line that has none. -/
inductive Completed : List Char → List Char → Prop
  | same (text : List Char) : Completed text text
  | ended {text : List Char} (hne : text ≠ []) (hlast : text.getLast? ≠ some '\n') : Completed text (text ++ ['\n'])

theorem consLine_snd {c : Char} (hc : c ≠ '\r') {state state' : Bool × List Line} (h : state.2 = state'.2) :
    (consLine c state).2 = (consLine c state').2 := by
  obtain ⟨atLineFeed, lines⟩ := state
  obtain ⟨atLineFeed', lines'⟩ := state'
  obtain rfl : lines = lines' := h
  have hreturn (b : Bool) : ¬ (c = '\r' ∧ b = true) := fun h ↦ hc h.1
  by_cases hfeed : c = '\n'
  · rw [hfeed]
    rfl
  cases lines with
  | nil => rw [consLine_nil hfeed (hreturn _), consLine_nil hfeed (hreturn _)]
  | cons line lines => rw [consLine_cons hfeed (hreturn _), consLine_cons hfeed (hreturn _)]

theorem linesOf_reended (h : Reended text other) (hreturn : '\r' ∉ text) : linesOf other = linesOf text := by
  induction h with
  | nil => rfl
  | same c h ih =>
    rw [List.mem_cons, not_or] at hreturn
    exact consLine_snd (Ne.symm hreturn.1) (ih hreturn.2)
  | returned h ih =>
    rw [List.mem_cons, not_or] at hreturn
    exact congrArg ([] :: ·) (ih hreturn.2)

theorem linesOf_completed (h : Completed text other) (hreturn : '\r' ∉ text) : linesOf other = linesOf text := by
  cases h with
  | same => rfl
  | ended hne hlast =>
    obtain ⟨front, c, rfl⟩ := (List.eq_nil_or_concat text).resolve_left hne
    simp only [List.concat_eq_append, List.getLast?_append, List.getLast?_singleton, Option.some_or, ne_eq,
      Option.some.injEq, List.mem_append, List.mem_singleton, not_or] at hlast hreturn
    -- the last character begins the last line, whether or not a line feed comes behind it
    have hc : consLine c (consLine '\n' (false, [])) = consLine c (false, []) := by
      rw [consLine_nil hlast (by simp)]
      exact consLine_cons hlast fun h ↦ hreturn.2 h.1.symm
    rw [linesOf, linesOf, List.concat_eq_append, List.foldr_append, List.foldr_append, List.foldr_append]
    simp only [List.foldr_cons, List.foldr_nil, hc]

theorem linesOf_flatMap (h : ∀ line ∈ lines, '\n' ∉ line) :
    linesOf (lines.flatMap (· ++ ['\n'])) = lines.map dropReturn := by
  induction lines with
  | nil => rfl
  | cons line lines ih =>
    obtain ⟨hline, hlines⟩ := List.forall_mem_cons.mp h
    rw [List.flatMap_cons, linesOf_append (.inr ⟨line, rfl⟩), linesOf_line hline, ih hlines, List.map_cons,
      List.singleton_append]

theorem linesOf_joinLines_concat (h : ∀ line ∈ front, '\n' ∉ line) (last : Line) :
    linesOf (joinLines (front ++ [last])) = front.map dropReturn ++ linesOf last := by
  have hends : EndsLine (front.flatMap (· ++ ['\n'])) := endsLine_flatMap fun line _ ↦ .inr ⟨line, rfl⟩
  rw [joinLines_concat, linesOf_append hends, linesOf_flatMap h]

theorem linesOf_eq_singleton_iff (h : '\n' ∉ last) : linesOf last = [last] ↔ last ≠ [] := by
  constructor
  · rintro hlines rfl
    cases hlines
  · exact linesOf_of_not_mem h

theorem linesOf_joinLines_eq_self_iff (h : ∀ line ∈ lines, '\n' ∉ line) : linesOf (joinLines lines) = lines ↔
    (∀ last ∈ lines.getLast?, last ≠ []) ∧ ∀ line ∈ lines.dropLast, line.getLast? ≠ some '\r' := by
  rcases List.eq_nil_or_concat lines with rfl | ⟨front, last, rfl⟩
  · simp [joinLines, join, linesOf]
  · rw [List.concat_eq_append] at h ⊢
    rw [List.forall_mem_append, List.forall_mem_singleton] at h
    have hlength : (front.map dropReturn).length = front.length := List.length_map _
    have hfront : front.map dropReturn = front ↔ ∀ line ∈ front, line.getLast? ≠ some '\r' := by
      have hmap : front.map dropReturn = front.map id ↔ ∀ line ∈ front, dropReturn line = id line := List.map_inj_left
      rw [List.map_id] at hmap
      simp only [hmap, id, dropReturn_eq_self_iff]
    rw [linesOf_joinLines_concat h.1, List.append_eq_append_iff_of_size_eq_left hlength, hfront,
      linesOf_eq_singleton_iff h.2, and_comm]
    simp

end Text

namespace Snippet

variable {text ended other : List Char}

theorem ofText_reended (hreturn : '\r' ∉ text) (hended : Completed text ended) (hother : Reended ended other)
    (id : String)
    (d : Dialect) : ofText id d other = ofText id d text := by
  have hreturn' : '\r' ∉ ended := by
    cases hended with
    | same => exact hreturn
    | ended => simpa using hreturn
  rw [ofText, linesOf_reended hother hreturn', linesOf_completed hended hreturn, ofText]

/-- How its lines are ended makes no difference to a snippet, and lines that are joined and read again are the same
lines exactly if the last is not empty and no other one ends with a carriage return. -/
theorem lineEnds_canonical (hreturn : '\r' ∉ text) (hended : Completed text ended) (hother : Reended ended other) :
    linesOf other = linesOf text ∧
      (∀ id d, (ofText id d other).digest = (ofText id d text).digest ∧
        (ofText id d other).entryBlock = (ofText id d text).entryBlock ∧
        (ofText id d other).transformation = (ofText id d text).transformation ∧
        (ofText id d other).functionText = (ofText id d text).functionText ∧
        (ofText id d other).outputs = (ofText id d text).outputs ∧
        (ofText id d other).returnType = (ofText id d text).returnType) ∧
      ∀ any, linesOf (joinLines (linesOf any)) = linesOf any ↔
        (∀ last ∈ (linesOf any).getLast?, last ≠ []) ∧ ∀ line ∈ (linesOf any).dropLast, line.getLast? ≠ some '\r' := by
  have hsame := ofText_reended hreturn hended hother
  refine ⟨congrArg Snippet.lines (hsame "" .java), fun id d ↦ ?_, fun any ↦ ?_⟩
  · rw [hsame id d]
    exact ⟨rfl, rfl, rfl, rfl, rfl, rfl⟩
  · exact linesOf_joinLines_eq_self_iff fun line hline ↦ not_mem_of_mem_linesOf hline

theorem lineEnds_canonical_mixed : ∃ text other : List Char, '\r' ∉ text ∧ Reended (text ++ ['\n']) other ∧
    other = "if x:\r\n\n    print(1)\r\n".toList ∧ linesOf other = linesOf text ∧
    linesOf text = ["if x:".toList, [], "    print(1)".toList] ∧
    (ofText "mixed" .python other).digest = (ofText "mixed" .python text).digest := by
  have hreturn : '\r' ∉ "if x:\n\n    print(1)".toList := by decide
  have hsame (line : Line) {t u : List Char} (h : Reended t u) : Reended (line ++ t) (line ++ u) := by
    induction line with
    | nil => exact h
    | cons c line ih => exact .same c ih
  have hother : Reended ("if x:\n\n    print(1)".toList ++ ['\n']) "if x:\r\n\n    print(1)\r\n".toList :=
    hsame "if x:".toList (.returned (.same '\n' (hsame "    print(1)".toList (.returned .nil))))
  obtain ⟨hlines, hanswers, -⟩ := lineEnds_canonical hreturn (.ended (by decide) (by decide)) hother
  exact ⟨_, _, hreturn, hother, rfl, hlines, by decide, (hanswers "mixed" .python).1⟩

end Snippet

end AnswerKey
