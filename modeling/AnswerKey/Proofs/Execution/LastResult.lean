import AnswerKey.Proofs.Execution.Result

namespace AnswerKey

open Text

def valuesOf : Option Line → Except RunFailure (List Json)
  | none => .error (.malformedOutput "no result line in runtime output")
  | some payload =>
    match Json.parse? (trim payload) with
    | some (.array values) => .ok values
    | some .null => .ok []
    | some other => .error (.malformedOutput ("expected a list of values, got " ++ .ofList other.compact))
    | none => .error (.malformedOutput Json.complaint)

/-- More output that stands on lines of its own: the output before it has ended its line, or it ends that line first. -/
def StartsLine (output more : List UInt8) : Prop :=
  AtLineStart output ∨ (∃ rest, more = 0x0A :: rest) ∨ ∃ rest, more = 0x0D :: 0x0A :: rest

variable {output more : List UInt8} {text rest payload : List Char} {lines front back : List Line} {line : Line}

theorem collectedValues_eq (output : List UInt8) :
    collectedValues output = valuesOf (payload? (linesOf (decode output))) := by
  unfold collectedValues valuesOf
  cases payload? (linesOf (decode output)) <;> rfl

theorem payload?_append_of_none (h : ∀ line ∈ back, ¬ IsResultLine line) (front : List Line) :
    payload? (front ++ back) = payload? front := by
  rw [payload?_append, payload?_eq_none_iff.mpr h, Option.none_or]

theorem payload?_last (h : ∀ line ∈ back, ¬ IsResultLine line) (front : List Line) (payload : Line) :
    payload? (front ++ (Launcher.sentinel.toList ++ payload) :: back) = some payload := by
  rw [List.append_cons, payload?_append_of_none h, payload?_append_singleton, after?_append, Option.some_or]

theorem isResultLine_of_return (h : IsResultLine (line ++ ['\r'])) : IsResultLine line := by
  obtain ⟨payload, hpayload⟩ := h
  obtain ⟨rest, rfl, -⟩ := exists_of_append_eq_concat sentinel_getLast? hpayload
  exact ⟨rest, rfl⟩

theorem valuesOf_return (lines : List Line) (line : Line) :
    valuesOf (payload? (lines ++ [line ++ ['\r']])) = valuesOf (payload? (lines ++ [line])) := by
  by_cases hline : IsResultLine line
  · obtain ⟨payload, rfl⟩ := hline
    rw [payload?_append_singleton, payload?_append_singleton, List.append_assoc, after?_append, after?_append]
    simp only [Option.some_or, valuesOf, trim_append_return]
  · have hreturn : ¬ IsResultLine (line ++ ['\r']) := fun h ↦ hline (isResultLine_of_return h)
    rw [payload?_append_of_none (List.forall_mem_singleton.mpr hreturn),
      payload?_append_of_none (List.forall_mem_singleton.mpr hline)]

theorem not_isResultLine_nil : ¬ IsResultLine [] := by
  intro h
  exact absurd (List.prefix_nil.mp h) (by decide)

theorem valuesOf_linesOf_unfinished {front begun : List Char} (hfront : EndsLine front) (hbegun : '\n' ∉ begun) :
    valuesOf (payload? (linesOf (front ++ begun))) = valuesOf (payload? (linesOf front ++ [begun])) := by
  rw [linesOf_append hfront]
  cases begun with
  | nil =>
    have hnil : linesOf [] = [] := rfl
    rw [payload?_append_of_none (List.forall_mem_singleton.mpr not_isResultLine_nil), hnil, List.append_nil]
  | cons c begun => rw [linesOf_of_not_mem hbegun (List.cons_ne_nil c begun)]

theorem valuesOf_linesOf_ended {ended : List Char} (hended : ended = [] ∨ ended = ['\r'])
    (hrest : ∀ line ∈ linesOf rest, ¬ IsResultLine line) (text : List Char) :
    valuesOf (payload? (linesOf (text ++ (ended ++ '\n' :: rest)))) = valuesOf (payload? (linesOf text)) := by
  obtain ⟨front, begun, rfl, hfront, hbegun⟩ := exists_unfinished text
  have hmem : '\n' ∉ begun ++ ended := by
    rcases hended with rfl | rfl <;> simp [hbegun]
  obtain ⟨line, hline, hcases⟩ := exists_linesOf_line hmem
  have hlines : linesOf (front ++ begun ++ (ended ++ '\n' :: rest)) = linesOf front ++ [line] ++ linesOf rest := by
    rw [List.append_assoc, linesOf_append hfront, ← List.append_assoc begun, linesOf_append_newline, hline,
      List.append_assoc]
  have hbegunEnded : valuesOf (payload? (linesOf front ++ [begun ++ ended])) =
      valuesOf (payload? (linesOf front ++ [begun])) := by
    rcases hended with rfl | rfl
    · rw [List.append_nil]
    · exact valuesOf_return _ _
  rw [hlines, payload?_append_of_none hrest, valuesOf_linesOf_unfinished hfront hbegun, ← hbegunEnded]
  rcases hcases with rfl | hreturn
  · rfl
  · rw [hreturn, valuesOf_return]

theorem decode_append_newline (output rest : List UInt8) :
    decode (output ++ 0x0A :: rest) = decode output ++ '\n' :: decode rest :=
  decode_append_cons output rest (by decide)

theorem decode_append_of_atLineStart (h : AtLineStart output) (more : List UInt8) :
    decode (output ++ more) = decode output ++ decode more := by
  rcases h with rfl | ⟨front, rfl⟩
  · rfl
  · rw [List.append_assoc, List.singleton_append, decode_append_newline, decode_append_newline, List.append_assoc]
    rfl

theorem decode_append_return_newline (output rest : List UInt8) :
    decode (output ++ 0x0D :: 0x0A :: rest) = decode output ++ (['\r'] ++ '\n' :: decode rest) := by
  rw [decode_append_cons output _ (by decide)]
  exact congrArg _ (congrArg _ (decode_append_newline [] rest))

theorem not_isResultLine_of_newline (h : ∀ line ∈ linesOf ('\n' :: text), ¬ IsResultLine line) :
    ∀ line ∈ linesOf text, ¬ IsResultLine line := by
  have hlines : linesOf ('\n' :: text) = [] :: linesOf text := linesOf_append_newline [] text
  rw [hlines] at h
  exact (List.forall_mem_cons.mp h).2

theorem collectedValues_append (h : StartsLine output more)
    (hmore : ∀ line ∈ linesOf (decode more), ¬ IsResultLine line) :
    collectedValues (output ++ more) = collectedValues output := by
  rw [collectedValues_eq, collectedValues_eq]
  rcases h with h | ⟨rest, rfl⟩ | ⟨rest, rfl⟩
  · rw [decode_append_of_atLineStart h, linesOf_append (atLineStart_iff.mp h), payload?_append_of_none hmore]
  · rw [show decode (0x0A :: rest) = '\n' :: decode rest from decode_append_newline [] rest] at hmore
    rw [decode_append_newline]
    exact valuesOf_linesOf_ended (.inl rfl) (not_isResultLine_of_newline hmore) _
  · have hdecode : decode (0x0D :: 0x0A :: rest) = ['\r'] ++ '\n' :: decode rest := decode_append_return_newline [] rest
    have hlines : linesOf (['\r'] ++ '\n' :: decode rest) = [] :: linesOf (decode rest) :=
      linesOf_append_newline ['\r'] (decode rest)
    rw [hdecode, hlines] at hmore
    rw [decode_append_return_newline]
    exact valuesOf_linesOf_ended (.inr rfl) (List.forall_mem_cons.mp hmore).2 _

/-- A line begins with the sentinel where its bytes stand at the start of a line, whatever bytes are around them. -/
theorem exists_resultLine_iff : (∃ line ∈ linesOf (decode output), IsResultLine line) ↔
    ∃ front rest, AtLineStart front ∧ output = front ++ (utf8 Launcher.sentinel.toList ++ rest) := by
  constructor
  · rintro ⟨line, hline, payload, rfl⟩
    obtain ⟨front, rest, hfront, hdecode⟩ := exists_of_mem_linesOf hline
    rw [List.append_assoc] at hdecode
    obtain ⟨before, behind, houtput, rfl, -⟩ := exists_of_decode_append sentinel_isAscii sentinel_ne_nil hdecode
    exact ⟨before, behind, atLineStart_iff.mpr hfront, houtput⟩
  · rintro ⟨front, rest, hfront, rfl⟩
    obtain ⟨payload, more, hlines⟩ :=
      exists_linesOf_append sentinel_newline sentinel_getLast? sentinel_ne_nil (decode rest)
    rw [decode_append_of_atLineStart hfront, decode_utf8_append, linesOf_append (atLineStart_iff.mp hfront), hlines]
    exact ⟨Launcher.sentinel.toList ++ payload, List.mem_append_right _ List.mem_cons_self, payload, rfl⟩

/-- What a run has collected depends on the last line that begins with the sentinel alone. Without such a line, or
when what is left of it is neither an array nor null, the output is malformed; and more lines after it make no
difference as long as none of them begins with the sentinel. -/
theorem collectedValues_last (output : List UInt8) :
    ((∀ line ∈ linesOf (decode output), ¬ IsResultLine line) →
        ∃ reason, collectedValues output = .error (.malformedOutput reason)) ∧
      (∀ front payload back, linesOf (decode output) = front ++ (Launcher.sentinel.toList ++ payload) :: back →
        (∀ line ∈ back, ¬ IsResultLine line) →
        match Json.parse? (trim payload) with
        | some (.array values) => collectedValues output = .ok values
        | some .null => collectedValues output = .ok []
        | _ => ∃ reason, collectedValues output = .error (.malformedOutput reason)) ∧
      ∀ more, StartsLine output more → (∀ line ∈ linesOf (decode more), ¬ IsResultLine line) →
        collectedValues (output ++ more) = collectedValues output := by
  refine ⟨?_, ?_, fun more h hmore ↦ collectedValues_append h hmore⟩
  · intro hnone
    rw [collectedValues_eq, payload?_eq_none_iff.mpr hnone]
    exact ⟨_, rfl⟩
  · intro front payload back hlines hback
    rw [collectedValues_eq, hlines, payload?_last hback, valuesOf]
    cases Json.parse? (trim payload) with
    | none => exact ⟨_, rfl⟩
    | some json => cases json <;> first | rfl | exact ⟨_, rfl⟩

def brokenOutput : List UInt8 := printed "[1]".toList ++ utf8 (Launcher.sentinel.toList ++ "[2".toList) ++ [0xFF]

def laterOutput : List UInt8 := 0x0D :: 0x0A :: 0xC3 :: printed "[3]".toList ++ utf8 "done".toList

theorem collectedValues_last_broken :
    (∃ reason, collectedValues laterOutput = .error (.malformedOutput reason)) ∧
      collectedValues (printed "[1]".toList) = .ok [.int 1] ∧
      (∃ reason, collectedValues brokenOutput = .error (.malformedOutput reason)) ∧
      collectedValues (brokenOutput ++ laterOutput) = collectedValues brokenOutput := by
  have hlater : ∀ line ∈ linesOf (decode laterOutput), ¬ IsResultLine line := by decide
  have hlines : linesOf (decode brokenOutput) = [Launcher.sentinel.toList ++ "[1]".toList] ++
      (Launcher.sentinel.toList ++ "[2\uFFFD".toList) :: [] := by decide
  refine ⟨(collectedValues_last _).1 hlater, ?_, ?_, ?_⟩
  · exact (collectedValues_last _).2.1 [] "[1]".toList [] (by decide) (List.forall_mem_nil _)
  · exact (collectedValues_last _).2.1 _ _ _ hlines (List.forall_mem_nil _)
  · exact (collectedValues_last _).2.2 _ (.inr (.inr ⟨_, rfl⟩)) hlater

end AnswerKey
