import AnswerKey.Proofs.Code.Commentary
import AnswerKey.Script.Basic

namespace AnswerKey

open Text Code

namespace Machine

/-- The ways in which the machine reads a line, each with the machine and the outcome that it leads to. -/
inductive Reads (m : Machine) (commentary : Bool) (i : Nat) (line : Line) : Machine × Except Nat Step → Prop where
  | passed (hpos : m.position = .outside) (hi : i ≠ m.entryLine) :
      Reads m commentary i line (m, .ok (.copied line i))
  | entered (hpos : m.position = .outside) (hi : i = m.entryLine) :
      Reads m commentary i line ({ m with position := .inside i (indentWidth line) none },
        .ok (.entered (m.grammar.collector.instrumentEntry line) i))
  | skipped {e n : Nat} {b : Option Line} (hpos : m.position = .inside e n b)
      (hskip : (commentary || isBlankLine line) = true) :
      Reads m commentary i line (m, .ok (.copied line i))
  | closed {e n : Nat} {b : Option Line} (hpos : m.position = .inside e n b)
      (hcode : (commentary || isBlankLine line) = false) (hclose : m.grammar.closesBlock line n = true) :
      Reads m commentary i line ({ m with position := .outside },
        .ok (.closed (m.grammar.renderReturn? (b.getD (indentation line ++ defaultBodyIndent))) line i))
  | kept {e n : Nat} {b : Option Line} (hpos : m.position = .inside e n b)
      (hcode : (commentary || isBlankLine line) = false) (hclose : m.grammar.closesBlock line n = false)
      (hcall : m.grammar.outputCall? line = none) :
      Reads m commentary i line ({ m with position := .inside e n (b.or (some (indentation line))) },
        .ok (.copied line i))
  | appended {e n : Nat} {b : Option Line} {call : OutputCall} {args : Line} (hpos : m.position = .inside e n b)
      (hcode : (commentary || isBlankLine line) = false) (hclose : m.grammar.closesBlock line n = false)
      (hcall : m.grammar.outputCall? line = some call) (hargs : call.argument? line = some args) :
      Reads m commentary i line ({ m with position := .inside e n (b.or (some (indentation line))) },
        .ok (.appended (m.grammar.renderAppend (indentation line) args) i))
  | failed {e n : Nat} {b : Option Line} {call : OutputCall} (hpos : m.position = .inside e n b)
      (hcode : (commentary || isBlankLine line) = false) (hclose : m.grammar.closesBlock line n = false)
      (hcall : m.grammar.outputCall? line = some call) (hargs : call.argument? line = none) :
      Reads m commentary i line ({ m with position := .inside e n (b.or (some (indentation line))) }, .error i)

variable {m m' u : Machine} {commentary : Bool} {i : Nat} {line : Line} {lines : List Line}
  {outcome : Except Nat Step} {step : Step} {passages : List Passage}

theorem reads_act (m : Machine) (commentary : Bool) (i : Nat) (line : Line) :
    Reads m commentary i line (m.act commentary i line) := by
  unfold act
  split
  · next hpos =>
    split
    · next hi => exact .entered hpos hi
    · next hi => exact .passed hpos hi
  · next e n b hpos =>
    split
    · next hskip => exact .skipped hpos hskip
    · next hskip =>
      have hcode := Bool.eq_false_iff.mpr hskip
      split
      · next hclose => exact .closed hpos hcode hclose
      · next hclose =>
        have hopen := Bool.eq_false_iff.mpr hclose
        dsimp only
        split
        · next hcall => exact .kept hpos hcode hopen hcall
        · next call hcall =>
          split
          · next hargs => exact .failed hpos hcode hopen hcall hargs
          · next args hargs => exact .appended hpos hcode hopen hcall hargs

theorem act_of_reads {r : Machine × Except Nat Step} (h : Reads m commentary i line r) :
    m.act commentary i line = r := by
  cases h <;> simp_all [act]

theorem Reads.frame {r : Machine × Except Nat Step} (h : Reads m commentary i line r) :
    r.1.grammar = m.grammar ∧ r.1.entryLine = m.entryLine ∧ r.1.tracker = m.tracker := by
  cases h <;> exact ⟨rfl, rfl, rfl⟩

def Indents (P : Line → Prop) (m : Machine) : Prop :=
  ∀ entryLine entryIndent indent, m.position = .inside entryLine entryIndent (some indent) → P indent

theorem Indents.of_outside {P : Line → Prop} (h : m.position = .outside) : m.Indents P :=
  fun _ _ _ hpos ↦ Position.noConfusion (h.symm.trans hpos)

theorem Indents.getD {P : Line → Prop} {e n : Nat} {b : Option Line} {indent : Line} (hm : m.Indents P)
    (hpos : m.position = .inside e n b) (hindent : P indent) : P (b.getD indent) := by
  cases b with
  | none => exact hindent
  | some b => exact hm e n b hpos

theorem Indents.of_reads {P : Line → Prop} {r : Machine × Except Nat Step} (hm : m.Indents P)
    (hline : P (indentation line)) (h : Reads m commentary i line r) : r.1.Indents P := by
  have hbody {e n : Nat} {b : Option Line} (hpos : m.position = .inside e n b) :
      Indents P { m with position := .inside e n (b.or (some (indentation line))) } := by
    rintro e' n' indent h
    obtain ⟨-, -, hindent⟩ := Position.inside.inj h
    cases b with
    | none => exact Option.some.inj hindent ▸ hline
    | some b => exact hm e n indent (by rw [hpos]; exact congrArg _ hindent)
  cases h with
  | passed | skipped => exact hm
  | entered => exact fun _ _ _ h ↦ by simp at h
  | closed => exact .of_outside rfl
  | kept hpos | appended hpos | failed hpos => exact hbody hpos

theorem step?_eq_some_iff {r : Machine × Except Nat Step} : m.step? i line = some r ↔
    ∃ commentary t, m.tracker.feed? m.grammar.comments line = some (commentary, t) ∧
      { m with tracker := t }.act commentary i line = r := by
  simp [step?]

theorem run_append (m : Machine) (i : Nat) (front back : List Line) :
    m.run i (front ++ back) =
      match m.run i front with
      | (passages, .error stop) => (passages, .error stop)
      | (passages, .ok u) =>
        (passages ++ (u.run (i + front.length) back).1, (u.run (i + front.length) back).2) := by
  induction front generalizing m i with
  | nil => rfl
  | cons line front ih =>
    simp only [List.cons_append, run, List.length_cons]
    cases hs : m.step? i line with
    | none => rfl
    | some r =>
      rcases r with ⟨u, _ | step⟩
      · rfl
      · simp only [ih, Nat.add_assoc, Nat.add_comm 1]
        rcases u.run (i + 1) front with ⟨ps, _ | v⟩ <;> rfl

theorem run_append_of_ok {front back : List Line} {u : Machine} {qs : List Passage}
    (h : m.run i front = (qs, .ok u)) :
    m.run i (front ++ back) =
      (qs ++ (u.run (i + front.length) back).1, (u.run (i + front.length) back).2) := by
  rw [run_append, h]

theorem run_cons_ok (h : m.run i (line :: lines) = (passages, .ok m')) :
    ∃ commentary t u step rest, m.tracker.feed? m.grammar.comments line = some (commentary, t) ∧
      Reads { m with tracker := t } commentary i line (u, .ok step) ∧
      u.run (i + 1) lines = (rest, .ok m') ∧ passages = ⟨i, line, step⟩ :: rest := by
  simp only [run] at h
  split at h
  · cases h
  · cases h
  · next u step hstep =>
    obtain ⟨commentary, t, hfeed, hact⟩ := step?_eq_some_iff.mp hstep
    obtain ⟨hpassages, houtcome⟩ := Prod.mk.inj h
    exact ⟨commentary, t, u, step, (u.run (i + 1) lines).1, hfeed, hact ▸ reads_act _ _ _ _,
      Prod.ext rfl houtcome, hpassages.symm⟩

theorem run_cons_of_step {outcome : Except Stop Machine} (h : m.step? i line = some (u, .ok step))
    (hrest : u.run (i + 1) lines = (passages, outcome)) :
    m.run i (line :: lines) = (⟨i, line, step⟩ :: passages, outcome) := by
  simp only [run, h, hrest]

theorem run_cons_of_error {j : Nat} (h : m.step? i line = some (u, .error j)) :
    m.run i (line :: lines) = ([], .error (.unclosedCall j)) := by
  simp only [run, h]

/-- A run has no answer if there is none for the line after a front that it passes. -/
theorem run_unscannable_iff : (m.run i lines).2 = .error .unscannable ↔
    ∃ front line back passages u, lines = front ++ line :: back ∧ m.run i front = (passages, .ok u) ∧
      u.tracker.feed? u.grammar.comments line = none := by
  constructor
  · intro h
    induction lines generalizing m i with
    | nil => cases h
    | cons line lines ih =>
      cases hs : m.step? i line with
      | none => exact ⟨[], line, lines, [], m, rfl, rfl, by simpa [step?] using hs⟩
      | some r =>
        rcases r with ⟨v, j | step⟩
        · rw [run_cons_of_error hs] at h
          cases h
        · rw [run_cons_of_step hs rfl] at h
          obtain ⟨front, stop, back, passages, u, rfl, hfront, hstop⟩ := ih h
          exact ⟨line :: front, stop, back, _, u, rfl, run_cons_of_step hs hfront, hstop⟩
  · intro h
    obtain ⟨front, line, back, passages, u, rfl, hfront, hstop⟩ := h
    rw [run_append_of_ok hfront]
    simp only [run, step?, hstop, Option.map_none]

theorem frame_of_run (h : m.run i lines = (passages, .ok m')) :
    m'.grammar = m.grammar ∧ m'.entryLine = m.entryLine ∧
      m.tracker.after? m.grammar.comments lines = some m'.tracker := by
  induction lines generalizing m i passages with
  | nil =>
    cases h
    exact ⟨rfl, rfl, rfl⟩
  | cons line lines ih =>
    obtain ⟨commentary, t, u, step, rest, hfeed, hreads, hrest, -⟩ := run_cons_ok h
    obtain ⟨hg, he, ht⟩ := hreads.frame
    obtain ⟨hg', he', ht'⟩ := ih hrest
    refine ⟨hg'.trans hg, he'.trans he, Tracker.after?_cons_eq_some.mpr ⟨commentary, t, hfeed, ?_⟩⟩
    rwa [hg, ht] at ht'

theorem passages_of_run (h : m.run i lines = (passages, .ok m')) :
    passages.map (fun p ↦ (p.line, p.index)) = lines.zipIdx i := by
  induction lines generalizing m i passages with
  | nil =>
    cases h
    rfl
  | cons line lines ih =>
    obtain ⟨_, _, u, step, rest, _, _, hrest, rfl⟩ := run_cons_ok h
    rw [List.map_cons, List.zipIdx_cons, ih hrest]

end Machine
end AnswerKey
