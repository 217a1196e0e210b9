import AnswerKey.Proofs.Script.Layout
import Mathlib.Data.List.Basic

namespace AnswerKey

open Text Code

namespace Dialect

theorem instrumentEntry_length (d : Dialect) (line : Line) :
    (d.grammar.collector.instrumentEntry line).length = if d = .python then 2 else 1 := by
  cases d <;> rfl

theorem instrumentEntry_ne_nil (d : Dialect) (line : Line) : d.grammar.collector.instrumentEntry line ≠ [] := by
  cases d <;> simp [grammar, Java.grammar, JavaScript.grammar, Python.grammar, Python.instrumentEntry]

theorem renderReturn?_isSome (d : Dialect) (indent : Line) :
    (d.grammar.renderReturn? indent).isSome = decide (d ≠ .python) := by
  cases d <;> rfl

theorem runsToEnd_grammar (d : Dialect) : d.grammar.runsToEnd = decide (d = .python) := by
  cases d <;> rfl

end Dialect

namespace Step

variable {line : Line} {lines : List Line} {i : Nat} {returning : Option Line}

theorem texts_entered : (entered lines i).emitted.map (·.text) = lines := by
  rcases lines.eq_nil_or_concat with rfl | ⟨front, last, rfl⟩ <;> simp [entered, Function.comp_def]

theorem origins_entered (h : lines ≠ []) : (entered lines i).emitted.filterMap (·.origin) = [i] := by
  rcases lines.eq_nil_or_concat with rfl | ⟨front, last, rfl⟩
  · exact absurd rfl h
  · simp [entered, List.filterMap_map]

theorem origins_closed : (closed returning line i).emitted.filterMap (·.origin) = [i] := by
  cases returning <;> rfl

end Step

namespace Passage

variable {p : Passage} {d : Dialect} {passages : List Passage}

def texts (p : Passage) : List Line := p.step.emitted.map (·.text)

/-- The passages that a machine can make of a line. -/
def Made (d : Dialect) (p : Passage) : Prop :=
  p.Copied ∨ p.Entered d.grammar ∨ p.Appended d.grammar ∨ p.Closed d.grammar

theorem edit?_eq_some {e : Edit} :
    p.edit? = some e ↔ ∃ kind, p.step.edit = some kind ∧ e = ⟨p.index, kind, p.line, p.texts⟩ := by
  simp only [edit?, Option.map_eq_some_iff, texts]
  exact exists_congr fun kind ↦ and_congr_right fun _ ↦ eq_comm

theorem Made.texts_of_edit_none (h : p.Made d) (hedit : p.step.edit = none) : p.texts = [p.line] := by
  unfold texts
  rcases h with h | h | ⟨args, h⟩ | ⟨indent, h⟩ <;> rw [h] at hedit ⊢
  · rfl
  · cases hedit
  · cases hedit
  · cases hr : d.grammar.renderReturn? indent <;> rw [hr] at hedit
    · rfl
    · cases hedit

theorem Made.origins (h : p.Made d) : p.step.emitted.filterMap (·.origin) = [p.index] := by
  rcases h with h | h | ⟨args, h⟩ | ⟨indent, h⟩ <;> rw [h]
  · rfl
  · exact Step.origins_entered (d.instrumentEntry_ne_nil _)
  · rfl
  · exact Step.origins_closed

/-- Of the lines that a passage becomes the last one stands for its line, and the others are new. -/
theorem Made.exists_origins (h : p.Made d) :
    ∃ k, p.step.emitted.map (·.origin) = List.replicate k none ++ [some p.index] := by
  rcases h with h | h | ⟨args, h⟩ | ⟨indent, h⟩ <;> rw [h]
  · exact ⟨0, rfl⟩
  · rcases (d.grammar.collector.instrumentEntry p.line).eq_nil_or_concat with hnil | ⟨front, last, hlines⟩
    · exact absurd hnil (d.instrumentEntry_ne_nil _)
    · exact ⟨front.length, by simp [hlines, Step.entered, Function.comp_def]⟩
  · exact ⟨0, rfl⟩
  · cases d.grammar.renderReturn? indent with
    | none => exact ⟨0, rfl⟩
    | some text => exact ⟨1, rfl⟩

/-- A line that stands for a snippet line equals it unless the block is entered there or an output call was
there. -/
theorem Made.kept (h : p.Made d) {e : Emitted} (he : e ∈ p.step.emitted) {j : Nat} (hj : e.origin = some j) :
    j = p.index ∧
      (e.text = p.line ∨ p.step.edit = some .entryPoint ∨ p.step.edit = some .outputCall) := by
  refine ⟨?_, ?_⟩
  · have hmem := List.mem_filterMap.mpr ⟨e, he, hj⟩
    rw [h.origins] at hmem
    exact List.mem_singleton.mp hmem
  · rcases h with h | h | ⟨args, h⟩ | ⟨indent, h⟩ <;> rw [h] at he ⊢
    · exact .inl (List.mem_singleton.mp he ▸ rfl)
    · exact .inr (.inl rfl)
    · exact .inr (.inr rfl)
    · cases hr : d.grammar.renderReturn? indent <;> rw [hr] at he
      · exact .inl (List.mem_singleton.mp he ▸ rfl)
      · simp only [Step.closed, List.mem_cons, List.not_mem_nil, or_false] at he
        rcases he with rfl | rfl
        · cases hj
        · exact .inl rfl

theorem Copied.texts_eq (h : p.Copied) : p.texts = [p.line] := by
  rw [texts, h]
  rfl

theorem Copied.edit?_eq (h : p.Copied) : p.edit? = none := by
  rw [edit?, h]
  rfl

theorem Entered.texts_eq (h : p.Entered d.grammar) : p.texts = d.grammar.collector.instrumentEntry p.line := by
  rw [texts, h, Step.texts_entered]

theorem Entered.edit?_eq (h : p.Entered d.grammar) : p.edit? = some ⟨p.index, .entryPoint, p.line, p.texts⟩ :=
  edit?_eq_some.mpr ⟨_, by rw [h]; rfl, rfl⟩

theorem Closed.texts_eq (h : p.Closed d.grammar) :
    d = .python ∧ p.texts = [p.line] ∧ p.edit? = none ∨
      d ≠ .python ∧ (∃ text, p.texts = [text, p.line]) ∧ p.edit? = some ⟨p.index, .blockEnd, p.line, p.texts⟩ := by
  obtain ⟨indent, h⟩ := h
  have hsome := d.renderReturn?_isSome indent
  cases hr : d.grammar.renderReturn? indent with
  | none =>
    have hd : d = .python := by simpa [hr] using hsome
    have hcopied : p.Copied := by
      rw [Copied, h, hr]
      rfl
    exact .inl ⟨hd, hcopied.texts_eq, hcopied.edit?_eq⟩
  | some text =>
    have hd : d ≠ .python := by simpa [hr] using hsome
    rw [hr] at h
    refine .inr ⟨hd, ⟨text, ?_⟩, edit?_eq_some.mpr ⟨_, ?_, rfl⟩⟩
    · rw [texts, h]
      rfl
    · rw [h]
      rfl

theorem edits_of_copied (h : ∀ p ∈ passages, p.Copied) : passages.filterMap edit? = [] :=
  List.filterMap_eq_nil_iff.mpr fun p hp ↦ (h p hp).edit?_eq

theorem edits_of_body (h : ∀ p ∈ passages, p.Copied ∨ p.Appended d.grammar) :
    ∀ e ∈ passages.filterMap edit?, e.kind = .outputCall := by
  intro e he
  obtain ⟨p, hp, hpe⟩ := List.mem_filterMap.mp he
  obtain ⟨kind, hkind, rfl⟩ := edit?_eq_some.mp hpe
  rcases h p hp with hp | ⟨args, hp⟩ <;> rw [hp] at hkind <;> cases hkind
  rfl

theorem length_texts_of_body (h : ∀ p ∈ passages, p.Copied ∨ p.Appended d.grammar) :
    (passages.flatMap texts).length = passages.length := by
  induction passages with
  | nil => rfl
  | cons p passages ih =>
    obtain ⟨hp, hrest⟩ := List.forall_mem_cons.mp h
    have hone : p.texts.length = 1 := by
      rcases hp with hp | ⟨args, hp⟩ <;> rw [texts, hp] <;> rfl
    rw [List.flatMap_cons, List.length_append, hone, ih hrest, List.length_cons, Nat.add_comm]

theorem texts_copies (i : Nat) (lines : List Line) : (copies i lines).flatMap texts = lines := by
  induction lines generalizing i with
  | nil => rfl
  | cons line lines ih =>
    rw [copies_cons, List.flatMap_cons, ih]
    rfl

theorem length_texts_copies (i : Nat) (lines : List Line) :
    ((copies i lines).flatMap texts).length = lines.length := by
  rw [texts_copies]

end Passage

namespace Ending

variable {d : Dialect} {ending : List Passage} {pos : Position}

theorem made (h : Ending d.grammar ending pos) : ∀ p ∈ ending, p.Made d := by
  cases h with
  | «open» => simp
  | closed hp hafter =>
    refine List.forall_mem_cons.mpr ⟨.inr (.inr (.inr hp)), fun q hq ↦ .inl (hafter q hq)⟩

theorem edits (h : Ending d.grammar ending pos) (hpos : d ≠ .python → pos = .outside) :
    (∀ e ∈ ending.filterMap Passage.edit?, e.kind = .blockEnd) ∧
      (ending.filterMap Passage.edit?).length = (if d = .python then 0 else 1) ∧
      (ending.flatMap Passage.texts).length = ending.length + if d = .python then 0 else 1 := by
  cases h with
  | «open» =>
    have : d = .python := by
      by_contra hd
      cases hpos hd
    simp [this]
  | @closed p after hp hafter =>
    have hlength := Passage.length_texts_of_body (d := d) fun q hq ↦ .inl (hafter q hq)
    rcases hp.texts_eq with ⟨rfl, htexts, hedit⟩ | ⟨hd, ⟨text, htexts⟩, hedit⟩
    · rw [List.filterMap_cons_none hedit, Passage.edits_of_copied hafter, List.flatMap_cons, List.length_append,
        hlength, htexts]
      simp [Nat.add_comm]
    · rw [List.filterMap_cons_some hedit, Passage.edits_of_copied hafter, List.flatMap_cons, List.length_append,
        hlength, htexts]
      simp [hd]
      omega

end Ending

namespace Layout

variable {d : Dialect} {front : List Line} {entry : Passage} {body ending : List Passage} {pos : Position}

theorem made (h : Layout d.grammar front entry body ending pos) :
    ∀ p ∈ copies 0 front ++ entry :: (body ++ ending), p.Made d := by
  intro p hp
  simp only [List.mem_append, List.mem_cons] at hp
  rcases hp with hp | rfl | hp | hp
  · exact .inl (copied_of_mem_copies hp)
  · exact .inr (.inl h.entered)
  · rcases h.inside p hp with hp | hp
    · exact .inl hp
    · exact .inr (.inr (.inl hp))
  · exact h.ends.made p hp

theorem edits_eq (h : Layout d.grammar front entry body ending pos) :
    (copies 0 front ++ entry :: (body ++ ending)).filterMap Passage.edit? =
      ⟨front.length, .entryPoint, entry.line, entry.texts⟩ ::
        (body.filterMap Passage.edit? ++ ending.filterMap Passage.edit?) := by
  rw [List.filterMap_append, Passage.edits_of_copied fun p hp ↦ copied_of_mem_copies hp, List.nil_append,
    List.filterMap_cons_some h.entered.edit?_eq, List.filterMap_append, h.index_eq]

theorem length_texts (h : Layout d.grammar front entry body ending pos) (hpos : d ≠ .python → pos = .outside) :
    ((copies 0 front ++ entry :: (body ++ ending)).flatMap Passage.texts).length =
      (copies 0 front ++ entry :: (body ++ ending)).length + 1 := by
  have hfront := Passage.length_texts_copies 0 front
  have hentry : entry.texts.length = if d = .python then 2 else 1 := by
    rw [h.entered.texts_eq, d.instrumentEntry_length]
  have hbody := Passage.length_texts_of_body h.inside
  obtain ⟨-, -, hending⟩ := h.ends.edits hpos
  simp only [List.flatMap_append, List.flatMap_cons, List.length_append, List.length_cons, hfront, hentry, hbody,
    hending, length_copies]
  split <;> omega

/-- The declaration of the collector is the first of the lines that the entry line becomes. -/
theorem linesBeforeEntry_eq (h : Layout d.grammar front entry body ending pos) :
    linesBeforeEntry (copies 0 front ++ entry :: (body ++ ending)) = front.length := by
  have hcopied : ∀ p ∈ copies 0 front, decide (p.step.edit ≠ some .entryPoint) = true := by
    intro p hp
    rw [copied_of_mem_copies hp]
    rfl
  have hentry : decide (entry.step.edit ≠ some .entryPoint) = false := by
    rw [h.entered]
    rfl
  have hlength := Passage.length_texts_copies 0 front
  rw [linesBeforeEntry, List.takeWhile_append_of_pos hcopied, List.takeWhile_cons_of_neg (by simp [hentry]),
    List.append_nil]
  simpa [Passage.texts, List.length_flatMap, copies] using hlength

end Layout
end AnswerKey
