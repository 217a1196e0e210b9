import AnswerKey.Proofs.Script.Moves

namespace AnswerKey

open Text Code

namespace Passage

def Copied (p : Passage) : Prop := p.step = .copied p.line p.index

def Entered (g : Grammar) (p : Passage) : Prop :=
  p.step = .entered (g.collector.instrumentEntry p.line) p.index

def Appended (g : Grammar) (p : Passage) : Prop :=
  ∃ args, p.step = .appended (g.renderAppend (indentation p.line) args) p.index

def Closed (g : Grammar) (p : Passage) : Prop :=
  ∃ indent, p.step = .closed (g.renderReturn? indent) p.line p.index

end Passage

def copies (i : Nat) (lines : List Line) : List Passage :=
  (lines.zipIdx i).map fun (line, i) ↦ ⟨i, line, .copied line i⟩

theorem copies_cons (i : Nat) (line : Line) (lines : List Line) :
    copies i (line :: lines) = ⟨i, line, .copied line i⟩ :: copies (i + 1) lines := rfl

theorem length_copies (i : Nat) (lines : List Line) : (copies i lines).length = lines.length := by
  rw [copies, List.length_map, List.length_zipIdx]

theorem copied_of_mem_copies {i : Nat} {lines : List Line} {p : Passage} (h : p ∈ copies i lines) : p.Copied := by
  obtain ⟨⟨line, k⟩, -, rfl⟩ := List.mem_map.mp h
  rfl

/-- What a run passes once it has entered the block, and the position it leaves the machine at. -/
inductive Ending (g : Grammar) : List Passage → Position → Prop where
  | open {e n : Nat} {b : Option Line} : Ending g [] (.inside e n b)
  | closed {p : Passage} {after : List Passage} (hp : p.Closed g) (hafter : ∀ q ∈ after, q.Copied) :
      Ending g (p :: after) .outside

/-- Copies of the lines in front of the entry line, that line, the body of its block, and what ends it. -/
structure Layout (g : Grammar) (front : List Line) (entry : Passage) (body ending : List Passage)
    (pos : Position) : Prop where
  index_eq : entry.index = front.length
  entered : entry.Entered g
  inside : ∀ p ∈ body, p.Copied ∨ p.Appended g
  ends : Ending g ending pos

namespace Machine

variable {m m' : Machine} {i : Nat} {line : Line} {lines : List Line} {passages : List Passage} {t : Tracker}

/-- Away from the entry line a machine outside the block copies what it reads, while its tracker reads along. -/
theorem run_outside (hpos : m.position = .outside) (hentry : m.entryLine < i ∨ i + lines.length ≤ m.entryLine)
    (h : m.tracker.after? m.grammar.comments lines = some t) :
    m.run i lines = (copies i lines, .ok { m with tracker := t }) := by
  induction lines generalizing m i with
  | nil =>
    cases h
    rfl
  | cons line lines ih =>
    obtain ⟨commentary, v, hfeed, hrest⟩ := Tracker.after?_cons_eq_some.mp h
    have hi : i ≠ m.entryLine := by
      simp only [List.length_cons] at hentry
      omega
    have hstep : m.step? i line = some ({ m with tracker := v }, .ok (.copied line i)) := by
      simp [step?, hfeed, act, hpos, hi]
    have hentry' : m.entryLine < i + 1 ∨ i + 1 + lines.length ≤ m.entryLine := by
      simp only [List.length_cons] at hentry
      omega
    have := ih (m := { m with tracker := v }) (i := i + 1) hpos hentry' hrest
    simp only [run, hstep, this, copies_cons]

theorem run_outside_unscannable (hpos : m.position = .outside)
    (hentry : m.entryLine < i ∨ i + lines.length ≤ m.entryLine)
    (h : m.tracker.after? m.grammar.comments lines = none) :
    (m.run i lines).2 = .error .unscannable := by
  obtain ⟨front, line, back, t, rfl, ht, hstop⟩ := Tracker.after?_eq_none_iff.mp h
  have hfront : m.entryLine < i ∨ i + front.length ≤ m.entryLine := by
    simp only [List.length_append] at hentry
    omega
  exact run_unscannable_iff.mpr ⟨front, line, back, _, _, rfl, run_outside hpos hfront ht, hstop⟩

/-- Inside the block lines are copied or become append statements, until one closes it. -/
theorem run_inside {e n : Nat} {b : Option Line} (hpos : m.position = .inside e n b) (hi : m.entryLine < i)
    (h : m.run i lines = (passages, .ok m')) :
    ∃ body ending, passages = body ++ ending ∧ (∀ p ∈ body, p.Copied ∨ p.Appended m.grammar) ∧
      Ending m.grammar ending m'.position := by
  induction lines generalizing m i passages b with
  | nil =>
    cases h
    exact ⟨[], [], rfl, by simp, hpos ▸ .open⟩
  | cons line lines ih =>
    obtain ⟨commentary, t, u, step, rest, -, hreads, hrest, rfl⟩ := run_cons_ok h
    have hu := hreads.frame
    have hnext {b' : Option Line}
        (hp : (⟨i, line, step⟩ : Passage).Copied ∨ (⟨i, line, step⟩ : Passage).Appended m.grammar)
        (hpos' : u.position = .inside e n b') : ∃ body ending, ⟨i, line, step⟩ :: rest = body ++ ending ∧
        (∀ p ∈ body, p.Copied ∨ p.Appended m.grammar) ∧ Ending m.grammar ending m'.position := by
      obtain ⟨body, ending, rfl, hbody, hending⟩ := ih hpos' (by rw [hu.2.1]; exact Nat.lt_succ_of_lt hi) hrest
      rw [hu.1] at hbody hending
      exact ⟨⟨i, line, step⟩ :: body, ending, rfl, List.forall_mem_cons.mpr ⟨hp, hbody⟩, hending⟩
    cases hreads with
    | passed hout => exact absurd (hpos.symm.trans hout) (by simp)
    | entered hout => exact absurd (hpos.symm.trans hout) (by simp)
    | skipped => exact hnext (.inl rfl) hpos
    | kept hin =>
      obtain ⟨rfl, rfl, rfl⟩ := Position.inside.inj (hpos.symm.trans hin)
      exact hnext (.inl rfl) rfl
    | appended hin =>
      obtain ⟨rfl, rfl, rfl⟩ := Position.inside.inj (hpos.symm.trans hin)
      exact hnext (.inr ⟨_, rfl⟩) rfl
    | closed hin =>
      obtain ⟨-, -, htracker⟩ := frame_of_run hrest
      have hafter := run_outside (m := { m with position := .outside, tracker := t }) (i := i + 1) rfl
        (.inl (Nat.lt_succ_of_lt hi)) htracker
      obtain ⟨rfl, hm'⟩ := Prod.mk.inj (hrest.symm.trans hafter)
      rw [Except.ok.inj hm']
      exact ⟨[], _, rfl, by simp, .closed ⟨_, rfl⟩ fun q hq ↦ copied_of_mem_copies hq⟩

def afterEntry (m : Machine) (line : Line) (t : Tracker) : Machine :=
  { m with position := .inside m.entryLine (indentWidth line) none, tracker := t }

variable {front back : List Line}

theorem run_entry (hpos : m.position = .outside) (hentry : m.entryLine = front.length)
    (h : m.tracker.after? m.grammar.comments (front ++ [line]) = some t) :
    m.run 0 (front ++ line :: back) =
      (copies 0 front ++
          ⟨front.length, line, .entered (m.grammar.collector.instrumentEntry line) front.length⟩ ::
            ((m.afterEntry line t).run (front.length + 1) back).1,
        ((m.afterEntry line t).run (front.length + 1) back).2) := by
  rw [Tracker.after?_append, Option.bind_eq_some_iff] at h
  obtain ⟨v, hfront, hlast⟩ := h
  obtain ⟨commentary, w, hfeed, hw⟩ := Tracker.after?_cons_eq_some.mp hlast
  cases hw
  have hcopies := run_outside (i := 0) hpos (.inr (by omega)) hfront
  have hstep : { m with tracker := v }.step? front.length line =
      some (m.afterEntry line t, .ok (.entered (m.grammar.collector.instrumentEntry line) front.length)) := by
    simp [step?, hfeed, act, hpos, afterEntry, hentry]
  rw [run_append_of_ok hcopies, Nat.zero_add]
  simp only [run, hstep]

/-- A run over a text with its entry line comes in the parts of a layout. -/
theorem run_layout (hpos : m.position = .outside) (hentry : m.entryLine = front.length)
    (h : m.run 0 (front ++ line :: back) = (passages, .ok m')) :
    ∃ entry body ending, passages = copies 0 front ++ entry :: (body ++ ending) ∧
      Layout m.grammar front entry body ending m'.position := by
  obtain ⟨-, -, htracker⟩ := frame_of_run h
  rw [List.append_cons, Tracker.after?_append, Option.bind_eq_some_iff] at htracker
  obtain ⟨t, hfront, -⟩ := htracker
  rcases hback : (m.afterEntry line t).run (front.length + 1) back with ⟨rest, outcome⟩
  rw [run_entry hpos hentry hfront, hback] at h
  obtain ⟨rfl, rfl⟩ := Prod.mk.inj h
  obtain ⟨body, ending, rfl, hbody, hending⟩ :=
    run_inside rfl (by simp only [afterEntry, hentry]; exact Nat.lt_succ_self _) hback
  exact ⟨_, body, ending, rfl, rfl, rfl, hbody, hending⟩

end Machine
end AnswerKey
