import AnswerKey.Proofs.Dialect.Commentary
import AnswerKey.Proofs.Script.Agreement

namespace AnswerKey

open Text Code

namespace Dialect

variable {d : Dialect} {t : Tracker} {line : Line}

theorem feed?_eq_none_iff (d : Dialect) :
    t.feed? d.grammar.comments line = none ↔ d ≠ .python ∧ t.Unscannable line := by
  by_cases h : d = .python
  · subst h
    have hfeed : t.feed? Python.grammar.comments line = some (_, t) := Tracker.feed?_of_block_none rfl
    exact iff_of_false (by simp [grammar, hfeed]) fun hpython ↦ hpython.1 rfl
  · rw [comments_grammar h, Tracker.feed?_eq_none_iff, and_iff_right h]

end Dialect

theorem outputsOf_ne_unscannable {g : Grammar} {id : String} {t u : Tracker} {i : Nat} {lines : List Line}
    (h : t.after? g.comments lines = some u) : outputsOf g id t i lines ≠ .error .unscannable := by
  induction lines generalizing t i with
  | nil => simp [outputsOf]
  | cons line lines ih =>
    obtain ⟨commentary, v, hfeed, hv⟩ := Tracker.after?_cons_eq_some.mp h
    have hrest := ih (i := i + 1) hv
    simp only [outputsOf, hfeed]
    cases commentary with
    | true => exact hrest
    | false =>
      dsimp only
      split
      · exact hrest
      · split
        · simp
        · cases ho : outputsOf g id v (i + 1) lines with
          | error fault =>
            rw [ho] at hrest
            exact hrest
          | ok outputs => simp [Except.map]

namespace Snippet

def SearchStops (s : Snippet) : Prop :=
  ∃ front entry body line after t, s.lines = front ++ entry :: (body ++ line :: after) ∧
    s.entryLine = .ok front.length ∧
    closingIndex? s.grammar (indentWidth entry) {} (front.length + 1) body = some none ∧
    Tracker.after? s.grammar.comments {} body = some t ∧ t.Unscannable line

/-- The machine comes to a line that its tracker has no answer for. -/
def RunStops (s : Snippet) : Prop :=
  ∃ block front line after passages m, s.entryBlock = .ok block ∧ s.lines = front ++ line :: after ∧
    Machine.run { grammar := s.grammar, entryLine := block.start } 0 front = (passages, .ok m) ∧
    Tracker.after? s.grammar.comments {} front = some m.tracker ∧ m.tracker.Unscannable line

variable {s : Snippet} {start : Nat}

theorem entryLine_ne_unscannable : s.entryLine ≠ .error .unscannable := by
  unfold entryLine
  split <;> simp

theorem entryBlock_eq_unscannable : s.entryBlock = .error .unscannable ↔
    ∃ start, s.entryLine = .ok start ∧ s.closing? start = none := by
  cases hs : s.entryLine with
  | error fault =>
    have hfault : fault ≠ .unscannable := fun h ↦ entryLine_ne_unscannable (h ▸ hs)
    simp [entryBlock, hs, bind, Except.bind, hfault]
  | ok start =>
    rw [entryBlock_of_entryLine hs]
    cases hc : s.closing? start with
    | none => simp [hc]
    | some outcome =>
      cases outcome with
      | none => cases hruns : s.grammar.runsToEnd <;> simp [hc]
      | some stop => simp [hc]

theorem entryBlock_unscannable_iff :
    s.entryBlock = .error .unscannable ↔ s.dialect ≠ .python ∧ s.SearchStops := by
  rw [entryBlock_eq_unscannable]
  constructor
  · intro h
    obtain ⟨start, hstart, hnone⟩ := h
    obtain ⟨front, entry, back, hlines, rfl⟩ := split_of_entryLine hstart
    rw [closing?_eq hlines] at hnone
    obtain ⟨body, line, after, t, rfl, hopen, ht, hstop⟩ := closingIndex?_eq_none.mp hnone
    obtain ⟨hd, hline⟩ := s.dialect.feed?_eq_none_iff.mp hstop
    exact ⟨hd, front, entry, body, line, after, t, hlines, hstart, hopen, ht, hline⟩
  · intro h
    obtain ⟨hd, front, entry, body, line, after, t, hlines, hstart, hopen, ht, hline⟩ := h
    have hstop := s.dialect.feed?_eq_none_iff.mpr ⟨hd, hline⟩
    refine ⟨front.length, hstart, ?_⟩
    rw [closing?_eq hlines]
    exact closingIndex?_eq_none.mpr ⟨body, line, after, t, rfl, hopen, ht, hstop⟩

theorem outputs_unscannable_iff : s.outputs = .error .unscannable ↔ s.entryBlock = .error .unscannable := by
  cases hblock : s.entryBlock with
  | error fault => simp [outputs, hblock, bind, Except.bind]
  | ok block =>
    obtain ⟨front, entry, body, rest, hparts⟩ := Block.exists_parts hblock
    obtain ⟨u, hu⟩ := exists_after?_of_open hparts.open_body
    rw [outputs_eq hblock hparts]
    exact iff_of_false (outputsOf_ne_unscannable hu) (by simp)

theorem transform_eq_unscannable {block : Block} (hblock : s.entryBlock = .ok block) :
    s.transform = .error .unscannable ↔
      (Machine.run { grammar := s.grammar, entryLine := block.start } 0 s.lines).2 = .error .unscannable := by
  refine ⟨fun h ↦ ?_, transform_of_unscannable hblock⟩
  rcases hrun : Machine.run { grammar := s.grammar, entryLine := block.start } 0 s.lines with ⟨passages, outcome⟩
  simp only [transform, transformation, hblock, hrun] at h
  split at h
  · rfl
  · cases h
  · split at h <;> cases h

theorem transform_unscannable_iff : s.transform = .error .unscannable ↔
    s.entryBlock = .error .unscannable ∨ s.dialect ≠ .python ∧ s.RunStops := by
  cases hblock : s.entryBlock with
  | error fault => simp [transform, transformation, hblock, RunStops]
  | ok block =>
    rw [transform_eq_unscannable hblock, Machine.run_unscannable_iff]
    constructor
    · intro h
      obtain ⟨front, line, after, passages, m, hlines, hfront, hstop⟩ := h
      obtain ⟨hgrammar, -, htracker⟩ := Machine.frame_of_run hfront
      rw [hgrammar] at hstop
      obtain ⟨hd, hline⟩ := s.dialect.feed?_eq_none_iff.mp hstop
      exact .inr ⟨hd, block, front, line, after, passages, m, hblock, hlines, hfront, htracker, hline⟩
    · intro h
      obtain ⟨hd, block', front, line, after, passages, m, hblock', hlines, hfront, -, hline⟩ :=
        h.resolve_left (by simp)
      obtain rfl := Except.ok.inj (hblock.symm.trans hblock')
      obtain ⟨hgrammar, -, -⟩ := Machine.frame_of_run hfront
      have hstop : m.tracker.feed? m.grammar.comments line = none := by
        rw [hgrammar]
        exact s.dialect.feed?_eq_none_iff.mpr ⟨hd, hline⟩
      exact ⟨front, line, after, passages, m, hlines, hfront, hstop⟩

/-- A scan of code has no answer for a character beyond ASCII outside literals and comments, and only there; the
three operations have none where one of their trackers comes to a line with such a character, and only there. -/
theorem unscannable_iff (s : Snippet) :
    (∀ text, leavesOpen? ['/', '/'] ['/', '*'] ['*', '/'] .code text = none ↔ ∃ front c rest,
      text = front ++ c :: rest ∧ ((Place.code false).after front).isCode = true ∧ 0x80 ≤ c.toNat) ∧
    (s.entryBlock = .error .unscannable ↔ s.dialect ≠ .python ∧ s.SearchStops) ∧
    (s.outputs = .error .unscannable ↔ s.dialect ≠ .python ∧ s.SearchStops) ∧
    (s.transform = .error .unscannable ↔ s.dialect ≠ .python ∧ (s.SearchStops ∨ s.RunStops)) := by
  refine ⟨fun text ↦ ?_, entryBlock_unscannable_iff, ?_, ?_⟩
  · rw [Place.leavesOpen?_eq, Option.map_eq_none_iff, Place.scan?_eq_none_iff]
    rfl
  · rw [outputs_unscannable_iff, entryBlock_unscannable_iff]
  · rw [transform_unscannable_iff, entryBlock_unscannable_iff, and_or_left]

def accented : Snippet where
  id := "accented"
  dialect := .javaScript
  lines := ["function main() \x7b".toList, "  é();".toList, "\x7d".toList]

theorem accented_unscannable : accented.entryBlock = .error .unscannable ∧
    accented.outputs = .error .unscannable ∧ accented.transform = .error .unscannable := by
  have hblock : accented.entryBlock = .error .unscannable := by decide +kernel
  exact ⟨hblock, outputs_unscannable_iff.mpr hblock, transform_unscannable_iff.mpr (.inl hblock)⟩

end Snippet
end AnswerKey
