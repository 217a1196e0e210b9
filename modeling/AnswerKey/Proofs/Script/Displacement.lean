import AnswerKey.Proofs.Dialect.Indentation
import AnswerKey.Proofs.Script.Moves
import AnswerKey.Snippet.Outputs
import Mathlib.Data.List.Basic

namespace AnswerKey

open Text Code

def Defect.mapLine (f : Nat → Nat) : Defect → Defect
  | unknownReturnType snippet type line => unknownReturnType snippet type (f line)
  | unclosedCall snippet line => unclosedCall snippet (f line)
  | unclosedBlock snippet line => unclosedBlock snippet (f line)
  | defect => defect

def Fault.mapLine (f : Nat → Nat) : Fault → Fault
  | defect d => defect (d.mapLine f)
  | unscannable => unscannable

structure Displacement where
  number : Nat → Nat
  injective : number.Injective
  blanks : Line
  blank : isBlankLine blanks = true

namespace Displacement

variable (δ : Displacement)

def line (line : Line) : Line := δ.blanks ++ line

def emitted (e : Emitted) : Emitted := ⟨δ.line e.text, e.origin.map δ.number⟩

def step (s : Step) : Step := ⟨s.emitted.map δ.emitted, s.edit⟩

def passage (p : Passage) : Passage := ⟨δ.number p.index, δ.line p.line, δ.step p.step⟩

def position : Position → Position
  | .outside => .outside
  | .inside entryLine entryIndent bodyIndent =>
    .inside (δ.number entryLine) (columns δ.blanks + entryIndent) (bodyIndent.map δ.line)

def machine (m : Machine) : Machine :=
  { m with entryLine := δ.number m.entryLine, position := δ.position m.position }

def stop : Machine.Stop → Machine.Stop
  | .unscannable => .unscannable
  | .unclosedCall i => .unclosedCall (δ.number i)

def output (o : Output) : Output := { o with line := δ.number o.line }

/-- The lines numbered from `i` on, of which there are `n`, are the lines numbered from `j` on. -/
def Moves (i j n : Nat) : Prop := ∀ k < n, δ.number (i + k) = j + k

variable {δ} {i j n : Nat}

theorem Moves.head (h : δ.Moves i j (n + 1)) : δ.number i = j := h 0 (Nat.succ_pos n)

theorem Moves.tail (h : δ.Moves i j (n + 1)) : δ.Moves (i + 1) (j + 1) n := by
  intro k hk
  have := h (k + 1) (Nat.succ_lt_succ hk)
  rwa [Nat.add_comm k, ← Nat.add_assoc, ← Nat.add_assoc] at this

section

variable {g : Grammar} {line args : Line} {b : Option Line}

theorem indentation_line (line : Line) : indentation (δ.line line) = δ.line (indentation line) :=
  indentation_append δ.blank line

theorem step_entered {d : Dialect} (hg : g = d.grammar) :
    δ.step (.entered (g.collector.instrumentEntry line) i) =
      .entered (g.collector.instrumentEntry (δ.line line)) (δ.number i) := by
  have hlines : g.collector.instrumentEntry (δ.line line) = (g.collector.instrumentEntry line).map δ.line := by
    rw [hg]
    exact d.instrumentEntry_append δ.blank line
  simp only [hlines, step, Step.entered, List.map_append, List.map_map, List.map_dropLast, List.getLast?_map,
    ← Option.toList_map, Option.map_map]
  rfl

theorem step_closed : δ.step (.closed (g.renderReturn? (b.getD (indentation line ++ defaultBodyIndent))) line i) =
    .closed (g.renderReturn? ((b.map δ.line).getD (indentation (δ.line line) ++ defaultBodyIndent))) (δ.line line)
      (δ.number i) := by
  have hindent : (b.map δ.line).getD (indentation (δ.line line) ++ defaultBodyIndent) =
      δ.line (b.getD (indentation line ++ defaultBodyIndent)) := by
    rw [indentation_line, Displacement.line, List.append_assoc, ← Displacement.line, Option.getD_map]
  rw [hindent, Displacement.line, g.renderReturn?_append]
  cases g.renderReturn? (b.getD (indentation line ++ defaultBodyIndent)) <;> rfl

theorem step_appended : δ.step (.appended (g.renderAppend (indentation line) args) i) =
    .appended (g.renderAppend (indentation (δ.line line)) args) (δ.number i) := by
  rw [indentation_line, Displacement.line, g.renderAppend_append]
  rfl

end

section

variable {d : Dialect} {line : Line} {call : OutputCall}

theorem outputCall?_eq_none (hcall : d.grammar.outputCall? line = none) :
    d.grammar.outputCall? (δ.line line) = none := by
  simpa [hcall, Displacement.line] using d.argument?_append δ.blank line

theorem exists_outputCall? (hcall : d.grammar.outputCall? line = some call) :
    ∃ call', d.grammar.outputCall? (δ.line line) = some call' ∧ call'.opening = call.opening ∧
      call'.argument? (δ.line line) = call.argument? line := by
  have h := d.argument?_append δ.blank line
  rw [hcall, Option.map_some, Option.map_eq_some_iff] at h
  obtain ⟨call', hcall', heq⟩ := h
  obtain ⟨hopening, hargs⟩ := Prod.mk.inj heq
  exact ⟨call', hcall', hopening, hargs⟩

end
end Displacement

namespace Machine

open Displacement

variable {d : Dialect} {m : Machine} {δ : Displacement} {commentary : Bool} {i j : Nat} {line : Line}

theorem act_displaced (hg : m.grammar = d.grammar) (commentary : Bool) (i : Nat) (line : Line) :
    (δ.machine m).act commentary (δ.number i) (δ.line line) =
      (δ.machine (m.act commentary i line).1, ((m.act commentary i line).2.map δ.step).mapError δ.number) := by
  have hblank : isBlankLine (δ.line line) = isBlankLine line := isBlankLine_append δ.blank line
  have hcloses (k : Nat) :
      m.grammar.closesBlock (δ.line line) (columns δ.blanks + k) = m.grammar.closesBlock line k := by
    rw [hg]
    exact d.closesBlock_append δ.blank line k
  have houtside (hpos : m.position = .outside) : (δ.machine m).position = .outside := by
    simp only [machine, hpos, Displacement.position]
  have hinside {e n : Nat} {b : Option Line} (hpos : m.position = .inside e n b) :
      (δ.machine m).position = .inside (δ.number e) (columns δ.blanks + n) (b.map δ.line) := by
    simp only [machine, hpos, Displacement.position]
  have hbody (b : Option Line) : (b.map δ.line).or (some (indentation (δ.line line))) =
      (b.or (some (indentation line))).map δ.line := by
    rw [indentation_line]
    cases b <;> rfl
  have h := reads_act m commentary i line
  generalize m.act commentary i line = r at h
  cases h with
  | passed hpos hi => rw [act_of_reads (.passed (houtside hpos) fun h ↦ hi (δ.injective h))]; rfl
  | entered hpos hi =>
    have hwidth : indentWidth (δ.line line) = columns δ.blanks + indentWidth line := indentWidth_append δ.blank line
    rw [act_of_reads (.entered (houtside hpos) (congrArg δ.number hi)), hwidth]
    exact congrArg (fun step ↦ (_, Except.ok step)) (step_entered hg).symm
  | skipped hpos hskip => rw [act_of_reads (.skipped (hinside hpos) (by rwa [hblank]))]; rfl
  | closed hpos hcode hclose =>
    rw [act_of_reads (.closed (hinside hpos) (by rwa [hblank]) ((hcloses _).trans hclose))]
    exact congrArg (fun step ↦ (_, Except.ok step)) step_closed.symm
  | kept hpos hcode hclose hcall =>
    have hcall' := outputCall?_eq_none (δ := δ) (hg ▸ hcall)
    rw [act_of_reads (.kept (hinside hpos) (by rwa [hblank]) ((hcloses _).trans hclose) (hg ▸ hcall')), hbody]
    rfl
  | appended hpos hcode hclose hcall hargs =>
    obtain ⟨call', hcall', -, hargs'⟩ := exists_outputCall? (δ := δ) (hg ▸ hcall)
    rw [act_of_reads (.appended (hinside hpos) (by rwa [hblank]) ((hcloses _).trans hclose) (hg ▸ hcall')
      (hargs'.trans hargs)), hbody]
    exact congrArg (fun step ↦ (_, Except.ok step)) step_appended.symm
  | failed hpos hcode hclose hcall hargs =>
    obtain ⟨call', hcall', -, hargs'⟩ := exists_outputCall? (δ := δ) (hg ▸ hcall)
    rw [act_of_reads (.failed (hinside hpos) (by rwa [hblank]) ((hcloses _).trans hclose) (hg ▸ hcall')
      (hargs'.trans hargs)), hbody]
    rfl

theorem step?_displaced (hg : m.grammar = d.grammar) (i : Nat) (line : Line) :
    (δ.machine m).step? (δ.number i) (δ.line line) =
      (m.step? i line).map fun r ↦ (δ.machine r.1, (r.2.map δ.step).mapError δ.number) := by
  have hfeed : m.tracker.feed? m.grammar.comments (δ.line line) = m.tracker.feed? m.grammar.comments line :=
    Tracker.feed?_append δ.blank line
  have hact (commentary : Bool) (t : Tracker) :=
    act_displaced (δ := δ) (m := { m with tracker := t }) hg commentary i line
  simp only [step?, Option.map_map]
  change (m.tracker.feed? m.grammar.comments (δ.line line)).map _ = _
  rw [hfeed]
  exact Option.map_congr fun r _ ↦ hact r.1 r.2

theorem run_displaced (hg : m.grammar = d.grammar) (lines : List Line) (hmoves : δ.Moves i j lines.length) :
    (δ.machine m).run j (lines.map δ.line) =
      ((m.run i lines).1.map δ.passage, ((m.run i lines).2.map δ.machine).mapError δ.stop) := by
  induction lines generalizing m i j with
  | nil => rfl
  | cons line lines ih =>
    obtain rfl := hmoves.head
    have hstep := step?_displaced (δ := δ) hg i line
    cases hs : m.step? i line with
    | none => simp only [List.map_cons, run, hstep, hs]; rfl
    | some r =>
      obtain ⟨u, outcome⟩ := r
      have hu : u.grammar = d.grammar := by
        obtain ⟨commentary, t, -, hact⟩ := step?_eq_some_iff.mp hs
        have := (reads_act { m with tracker := t } commentary i line).frame.1
        rw [hact] at this
        exact this.trans hg
      cases outcome with
      | error k => simp only [List.map_cons, run, hstep, hs]; rfl
      | ok step =>
        have hrest := ih hu hmoves.tail
        simp only [List.map_cons, run, hstep, hs, Option.map_some, Except.map, Except.mapError, hrest]
        rfl

theorem unclosed?_displaced : (δ.machine m).unclosed? = m.unclosed?.map δ.number := by
  unfold unclosed?
  cases hpos : m.position with
  | outside => simp only [machine, hpos, Displacement.position]; rfl
  | inside e n b =>
    simp only [machine, hpos, Displacement.position]
    split <;> rfl

end Machine

section

open Displacement

variable {d : Dialect} {g : Grammar} {δ : Displacement} {i j : Nat} {t : Tracker}

theorem closingIndex?_displaced (hg : g = d.grammar) (n : Nat) (lines : List Line)
    (hmoves : δ.Moves i j lines.length) :
    closingIndex? g (columns δ.blanks + n) t j (lines.map δ.line) =
      (closingIndex? g n t i lines).map (Option.map δ.number) := by
  induction lines generalizing t i j with
  | nil => rfl
  | cons line lines ih =>
    have hfeed : t.feed? g.comments (δ.line line) = t.feed? g.comments line := Tracker.feed?_append δ.blank line
    have hcloses : g.closesBlock (δ.line line) (columns δ.blanks + n) = g.closesBlock line n := by
      rw [hg]
      exact d.closesBlock_append δ.blank line n
    simp only [List.map_cons, closingIndex?, hfeed, hcloses]
    cases t.feed? g.comments line with
    | none => rfl
    | some r =>
      dsimp only
      split
      · rw [Option.map_some, Option.map_some, hmoves.head]
      · exact ih hmoves.tail

theorem outputsOf_displaced (hg : g = d.grammar) (id : String) (lines : List Line)
    (hmoves : δ.Moves i j lines.length) :
    outputsOf g id t j (lines.map δ.line) =
      ((outputsOf g id t i lines).map (List.map δ.output)).mapError (Fault.mapLine δ.number) := by
  subst hg
  induction lines generalizing t i j with
  | nil => rfl
  | cons line lines ih =>
    have hfeed : t.feed? d.grammar.comments (δ.line line) = t.feed? d.grammar.comments line :=
      Tracker.feed?_append δ.blank line
    obtain rfl := hmoves.head
    have hrest (v : Tracker) := ih (t := v) hmoves.tail
    simp only [List.map_cons, outputsOf, hfeed]
    cases t.feed? d.grammar.comments line with
    | none => rfl
    | some r =>
      obtain ⟨_ | _, v⟩ := r
      · cases hcall : d.grammar.outputCall? line with
        | none =>
          simp only [outputCall?_eq_none hcall]
          exact hrest v
        | some call =>
          obtain ⟨call', hcall', hopening, hargs⟩ := exists_outputCall? (δ := δ) hcall
          simp only [hcall', hargs, hopening]
          cases call.argument? line with
          | none => rfl
          | some args =>
            simp only [hrest v]
            cases outputsOf d.grammar id v (i + 1) lines <;> rfl
      · exact hrest v

theorem emitted_displaced (δ : Displacement) (passages : List Passage) :
    (passages.map δ.passage).flatMap (·.step.emitted) = (passages.flatMap (·.step.emitted)).map δ.emitted := by
  rw [List.flatMap_map, List.map_flatMap]
  rfl

theorem appended_displaced (δ : Displacement) (passages : List Passage) :
    (passages.map δ.passage).countP (fun p ↦ p.step.edit = some .outputCall) =
      passages.countP fun p ↦ p.step.edit = some .outputCall := by
  rw [List.countP_map]
  rfl

end

namespace Snippet

def conclude (s : Snippet) : List Passage × Except Machine.Stop Machine → Except Fault Script
  | (_, .error .unscannable) => .error .unscannable
  | (_, .error (.unclosedCall i)) => .error (.defect (.unclosedCall s.id i))
  | (passages, .ok machine) =>
    match machine.unclosed? with
    | some i => .error (.defect (.unclosedBlock s.id i))
    | none => .ok (s.scriptOf passages)

variable {s : Snippet} {block : Block} {δ : Displacement} {passages passages' : List Passage}
  {outcome : Except Machine.Stop Machine} {f : Script → Script}

theorem transform_eq_conclude (hblock : s.entryBlock = .ok block) : s.transform =
    s.conclude (Machine.run { grammar := s.grammar, entryLine := block.start } 0 s.lines) := by
  simp only [transform, transformation, hblock]
  rcases Machine.run { grammar := s.grammar, entryLine := block.start } 0 s.lines with ⟨passages, (_ | _) | machine⟩
  · rfl
  · rfl
  · cases h : machine.unclosed? <;> simp [conclude, h]

/-- A displaced run comes to the same end about displaced lines. -/
theorem conclude_displaced (s s' : Snippet) (hid : s'.id = s.id)
    (hscript : ∀ m, outcome = .ok m → s'.scriptOf passages' = f (s.scriptOf passages)) :
    s'.conclude (passages', (outcome.map δ.machine).mapError δ.stop) =
      ((s.conclude (passages, outcome)).map f).mapError (Fault.mapLine δ.number) := by
  cases outcome with
  | error stop =>
    cases stop with
    | unscannable => rfl
    | unclosedCall i => simp only [Except.map, Except.mapError, conclude, hid]; rfl
  | ok m =>
    simp only [Except.map, Except.mapError, conclude, Machine.unclosed?_displaced]
    cases m.unclosed? with
    | none => exact congrArg Except.ok (hscript m rfl)
    | some i => simp only [Option.map_some, hid]; rfl

end Snippet
end AnswerKey
