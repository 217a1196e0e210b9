import AnswerKey.Proofs.Code.Commentary
import AnswerKey.Proofs.Text.Lines
import AnswerKey.Snippet.Block

namespace AnswerKey

open Text Code

section

variable {marker : Marker} {lines : List Line} {i : Nat}

theorem lastIndex?_eq_none_iff : lastIndex? marker lines = none ↔ ∀ line ∈ lines, marker.accepts line = false := by
  induction lines with
  | nil => simp [lastIndex?]
  | cons line lines ih =>
    rw [List.forall_mem_cons, ← ih, lastIndex?]
    cases lastIndex? marker lines <;> simp

theorem lastIndex?_eq_some_iff : lastIndex? marker lines = some i ↔
    ∃ front line back, lines = front ++ line :: back ∧ front.length = i ∧ marker.accepts line = true ∧
      ∀ later ∈ back, marker.accepts later = false := by
  constructor
  · intro h
    induction lines generalizing i with
    | nil => cases h
    | cons line lines ih =>
      simp only [lastIndex?] at h
      split at h
      · next j hj =>
        obtain ⟨front, last, back, rfl, rfl, haccepts, hback⟩ := ih hj
        exact ⟨line :: front, last, back, rfl, Option.some.inj h, haccepts, hback⟩
      · next hnone =>
        split at h
        · next haccepts =>
          exact ⟨[], line, lines, rfl, Option.some.inj h, haccepts, lastIndex?_eq_none_iff.mp hnone⟩
        · cases h
  · rintro ⟨front, line, back, rfl, rfl, haccepts, hback⟩
    induction front with
    | nil => rw [List.nil_append, lastIndex?, lastIndex?_eq_none_iff.mpr hback, if_pos haccepts, List.length_nil]
    | cons other front ih => rw [List.cons_append, lastIndex?, ih, List.length_cons]

theorem firstIndex?_eq_some_iff : firstIndex? marker lines = some i ↔
    ∃ front line back, lines = front ++ line :: back ∧ front.length = i ∧ marker.accepts line = true ∧
      ∀ earlier ∈ front, marker.accepts earlier = false := by
  unfold firstIndex?
  constructor
  · intro h
    obtain ⟨hi, haccepts, hfirst⟩ := List.findIdx?_eq_some_iff_getElem.mp h
    refine ⟨lines.take i, lines[i], lines.drop (i + 1), ?_, List.length_take_of_le (Nat.le_of_lt hi), haccepts, ?_⟩
    · rw [← List.drop_eq_getElem_cons hi, List.take_append_drop]
    · intro earlier hmem
      obtain ⟨j, hj, rfl⟩ := List.mem_take_iff_getElem.mp hmem
      simpa using hfirst j (by omega)
  · rintro ⟨front, line, back, rfl, rfl, haccepts, hfront⟩
    rw [List.findIdx?_append, List.findIdx?_eq_none_iff.mpr hfront, List.findIdx?_cons, haccepts]
    simp

end

section

variable {g : Grammar} {indent i stop : Nat} {t : Tracker} {lines : List Line}

theorem exists_after?_of_open (h : closingIndex? g indent t i lines = some none) :
    ∃ u, t.after? g.comments lines = some u := by
  induction lines generalizing t i with
  | nil => exact ⟨t, rfl⟩
  | cons line lines ih =>
    simp only [closingIndex?] at h
    split at h
    · cases h
    · next commentary v hfeed =>
      split at h
      · cases h
      · obtain ⟨u, hu⟩ := ih h
        exact ⟨u, Tracker.after?_cons_eq_some.mpr ⟨commentary, v, hfeed, hu⟩⟩

theorem closingIndex?_append {body rest : List Line} {u : Tracker}
    (hopen : closingIndex? g indent t i body = some none) (hu : t.after? g.comments body = some u) :
    closingIndex? g indent t i (body ++ rest) = closingIndex? g indent u (i + body.length) rest := by
  induction body generalizing t i with
  | nil =>
    cases hu
    rfl
  | cons line body ih =>
    obtain ⟨commentary, v, hfeed, hv⟩ := Tracker.after?_cons_eq_some.mp hu
    simp only [closingIndex?, hfeed, List.cons_append, List.length_cons] at hopen ⊢
    split at hopen
    · cases hopen
    · next hcode => rw [if_neg hcode, ih hopen hv, Nat.add_assoc, Nat.add_comm 1]

/-- The line at which the search for the closing line stops: there is no answer for it, or it is that line. -/
theorem exists_stop (h : closingIndex? g indent t i lines ≠ some none) :
    ∃ body line after u, lines = body ++ line :: after ∧ closingIndex? g indent t i body = some none ∧
      t.after? g.comments body = some u ∧
      (u.feed? g.comments line = none ∨
        ∃ v, u.feed? g.comments line = some (false, v) ∧ g.closesBlock line indent = true) := by
  induction lines generalizing t i with
  | nil => exact absurd rfl h
  | cons line lines ih =>
    cases hfeed : t.feed? g.comments line with
    | none => exact ⟨[], line, lines, t, rfl, rfl, rfl, .inl hfeed⟩
    | some r =>
      obtain ⟨commentary, v⟩ := r
      simp only [closingIndex?, hfeed] at h
      split at h
      · next hclose =>
        simp only [Bool.and_eq_true, Bool.not_eq_true'] at hclose
        exact ⟨[], line, lines, t, rfl, rfl, rfl, .inr ⟨v, hclose.1 ▸ hfeed, hclose.2⟩⟩
      · next hopen =>
        obtain ⟨body, stop, after, u, rfl, hbody, hu, hstop⟩ := ih h
        refine ⟨line :: body, stop, after, u, rfl, ?_, Tracker.after?_cons_eq_some.mpr ⟨_, _, hfeed, hu⟩, hstop⟩
        simp only [closingIndex?, hfeed, if_neg hopen, hbody]

/-- A block is closed by the first line of code that can close it. -/
theorem closingIndex?_eq_some_some : closingIndex? g indent t i lines = some (some stop) ↔
    ∃ body closing after u v, lines = body ++ closing :: after ∧ stop = i + body.length ∧
      closingIndex? g indent t i body = some none ∧ t.after? g.comments body = some u ∧
      u.feed? g.comments closing = some (false, v) ∧ g.closesBlock closing indent = true := by
  constructor
  · intro h
    have hne : closingIndex? g indent t i lines ≠ some none := by simp [h]
    obtain ⟨body, closing, after, u, rfl, hopen, hu, hstop⟩ := exists_stop hne
    rw [closingIndex?_append hopen hu] at h
    rcases hstop with hnone | ⟨v, hv, hcloses⟩
    · simp [closingIndex?, hnone] at h
    · simp only [closingIndex?, hv, hcloses, Bool.not_false, Bool.and_true, if_true, Option.some.injEq] at h
      exact ⟨body, closing, after, u, v, rfl, h.symm, hopen, hu, hv, hcloses⟩
  · intro h
    obtain ⟨body, closing, after, u, v, rfl, rfl, hopen, hu, hv, hcloses⟩ := h
    rw [closingIndex?_append hopen hu]
    simp [closingIndex?, hv, hcloses]

theorem closingIndex?_eq_none : closingIndex? g indent t i lines = none ↔
    ∃ body line after u, lines = body ++ line :: after ∧ closingIndex? g indent t i body = some none ∧
      t.after? g.comments body = some u ∧ u.feed? g.comments line = none := by
  constructor
  · intro h
    have hne : closingIndex? g indent t i lines ≠ some none := by simp [h]
    obtain ⟨body, line, after, u, rfl, hopen, hu, hstop⟩ := exists_stop hne
    rw [closingIndex?_append hopen hu] at h
    rcases hstop with hnone | ⟨v, hv, hcloses⟩
    · exact ⟨body, line, after, u, rfl, hopen, hu, hnone⟩
    · simp [closingIndex?, hv, hcloses] at h
  · intro h
    obtain ⟨body, line, after, u, rfl, hopen, hu, hnone⟩ := h
    rw [closingIndex?_append hopen hu]
    simp [closingIndex?, hnone]

end

namespace Snippet

variable {s : Snippet} {block : Block} {start : Nat}

theorem newline_not_mem_ofText (id : String) (dialect : Dialect) (text : List Char) :
    ∀ line ∈ (ofText id dialect text).lines, '\n' ∉ line :=
  fun _ hline ↦ not_mem_of_mem_linesOf hline

theorem entryLine_eq_ok_iff : s.entryLine = .ok start ↔
    ∃ front line back, s.lines = front ++ line :: back ∧ front.length = start ∧
      s.grammar.entryPoint.accepts line = true ∧ ∀ later ∈ back, s.grammar.entryPoint.accepts later = false := by
  rw [← lastIndex?_eq_some_iff, entryLine]
  cases lastIndex? s.grammar.entryPoint s.lines <;> simp

theorem split_of_entryLine (h : s.entryLine = .ok start) :
    ∃ front line back, s.lines = front ++ line :: back ∧ front.length = start := by
  obtain ⟨front, line, back, hlines, hfront, -, -⟩ := entryLine_eq_ok_iff.mp h
  exact ⟨front, line, back, hlines, hfront⟩

theorem accepts_of_entryLine (h : s.entryLine = .ok start) :
    ∃ line, s.lines[start]? = some line ∧ s.grammar.entryPoint.accepts line = true := by
  obtain ⟨front, line, back, hlines, rfl, haccepts, -⟩ := entryLine_eq_ok_iff.mp h
  exact ⟨line, by simp [hlines], haccepts⟩

def closing? (s : Snippet) (start : Nat) : Option (Option Nat) :=
  closingIndex? s.grammar (indentWidth (s.lines[start]?.getD [])) {} (start + 1) (s.lines.drop (start + 1))

theorem closing?_eq {front back : List Line} {line : Line} (hlines : s.lines = front ++ line :: back) :
    s.closing? front.length = closingIndex? s.grammar (indentWidth line) {} (front.length + 1) back := by
  have hget : s.lines[front.length]? = some line := by simp [hlines]
  have hdrop : s.lines.drop (front.length + 1) = back := by
    rw [hlines, List.append_cons, List.drop_left' (by simp)]
  rw [closing?, hget, hdrop, Option.getD_some]

theorem entryBlock_of_entryLine (h : s.entryLine = .ok start) :
    s.entryBlock =
      match s.closing? start with
      | none => .error .unscannable
      | some (some stop) => .ok ⟨start, stop, true⟩
      | some none =>
        if s.grammar.runsToEnd then .ok ⟨start, s.lines.length, false⟩
        else .error (.defect (.unclosedBlock s.id start)) := by
  simp only [entryBlock, h]
  rfl

theorem entryLine_of_entryBlock (h : s.entryBlock = .ok block) : s.entryLine = .ok block.start := by
  cases hs : s.entryLine with
  | error fault => simp [entryBlock, hs, bind, Except.bind] at h
  | ok start =>
    rw [entryBlock_of_entryLine hs] at h
    split at h
    · cases h
    · cases h
      rfl
    · split at h
      · cases h
        rfl
      · cases h

theorem closing?_of_entryBlock (h : s.entryBlock = .ok block) :
    s.closing? block.start = some (some block.stop) ∨
      s.closing? block.start = some none ∧ s.grammar.runsToEnd = true ∧ block.stop = s.lines.length := by
  rw [entryBlock_of_entryLine (entryLine_of_entryBlock h)] at h
  split at h
  · cases h
  · next stop hstop =>
    left
    rw [hstop, ← Except.ok.inj h]
  · next hnone =>
    split at h
    · next hruns => exact .inr ⟨hnone, hruns, by rw [← Except.ok.inj h]⟩
    · cases h

end Snippet

/-- The lines of a snippet around the block of its entry point: those in front of it, the entry line, the body,
and what follows the body, which begins with the closing line. -/
structure Block.Parts (s : Snippet) (block : Block) (front : List Line) (entry : Line) (body rest : List Line) :
    Prop where
  lines_eq : s.lines = front ++ entry :: (body ++ rest)
  start_eq : block.start = front.length
  stop_eq : block.stop = front.length + 1 + body.length
  open_body : closingIndex? s.grammar (indentWidth entry) {} (front.length + 1) body = some none
  ends : rest = [] ∧ s.grammar.runsToEnd = true ∨
    ∃ closing after u v, rest = closing :: after ∧ Tracker.after? s.grammar.comments {} body = some u ∧
      u.feed? s.grammar.comments closing = some (false, v) ∧
      s.grammar.closesBlock closing (indentWidth entry) = true

theorem Block.exists_parts {s : Snippet} {block : Block} (h : s.entryBlock = .ok block) :
    ∃ front entry body rest, block.Parts s front entry body rest := by
  obtain ⟨front, entry, back, hlines, hfront⟩ := Snippet.split_of_entryLine (Snippet.entryLine_of_entryBlock h)
  have hclosing := Snippet.closing?_of_entryBlock h
  rw [← hfront, Snippet.closing?_eq hlines] at hclosing
  rcases hclosing with hstop | ⟨hnone, hruns, hstop⟩
  · obtain ⟨body, closing, after, u, v, rfl, hstop, hopen, hu, hv, hcloses⟩ := closingIndex?_eq_some_some.mp hstop
    exact ⟨front, entry, body, closing :: after, hlines, hfront.symm, hstop, hopen,
      .inr ⟨closing, after, u, v, rfl, hu, hv, hcloses⟩⟩
  · refine ⟨front, entry, back, [], by simpa using hlines, hfront.symm, ?_, hnone, .inl ⟨rfl, hruns⟩⟩
    rw [hstop, hlines]
    simp
    omega

end AnswerKey
