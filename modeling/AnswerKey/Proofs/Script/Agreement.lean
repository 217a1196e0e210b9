import AnswerKey.Proofs.Script.Record
import AnswerKey.Snippet.Outputs
import Mathlib.Data.List.Forall2
import Mathlib.Data.List.TakeWhile

namespace AnswerKey

open Text Code

structure Renders (g : Grammar) (e : Edit) (o : Output) : Prop where
  kind_eq : e.kind = .outputCall
  line_eq : e.line = o.line
  emitted_eq : e.emitted = [g.renderAppend (indentation e.source) o.expression]

namespace Dialect

variable {line : Line}

theorem trimStart_eq_nil (h : isBlankLine line = true) : trimStart line = [] := by
  simpa [trimStart, isBlankLine, List.dropWhile_eq_nil_iff] using h

theorem outputCall?_of_isBlankLine (d : Dialect) (h : isBlankLine line = true) :
    d.grammar.outputCall? line = none := by
  cases d <;> simp [grammar, Java.grammar, JavaScript.grammar, Python.grammar, Grammar.outputCall?,
    trimStart_eq_nil h, startsWith, after?]

theorem isBlankLine_of_closesBlock (d : Dialect) {n : Nat} (h : d.grammar.closesBlock line n = true) :
    isBlankLine line = false := by
  by_contra hblank
  rw [Bool.not_eq_false] at hblank
  cases d <;> simp [grammar, Java.grammar, JavaScript.grammar, Python.grammar, Grammar.closesBlock,
    Marker.accepts, Java.closingLine, JavaScript.closingLine, trimStart_eq_nil hblank, hblank] at h

end Dialect

namespace Machine

variable {m u : Machine} {i j : Nat} {line : Line} {lines : List Line} {step : Step}

/-- What the two sides come to over lines of which none closes the block. -/
inductive BodyAgrees (m : Machine) (e n : Nat) (id : String) (t : Tracker) (i : Nat) (body : List Line) : Prop where
  | collected {outputs : List Output} {passages : List Passage} {m' : Machine} {b : Option Line}
      (houtputs : outputsOf m.grammar id t i body = .ok outputs) (hrun : m.run i body = (passages, .ok m'))
      (hpos : m'.position = .inside e n b)
      (hrenders : List.Forall₂ (Renders m.grammar) (passages.filterMap Passage.edit?) outputs)
  | failed {k : Nat} {passages : List Passage}
      (houtputs : outputsOf m.grammar id t i body = .error (.defect (.unclosedCall id k)))
      (hrun : m.run i body = (passages, .error (.unclosedCall k)))

theorem BodyAgrees.cons {e n : Nat} {id : String} {t t' : Tracker} (new : List Output)
    (hstep : m.step? i line = some (u, .ok step)) (hg : u.grammar = m.grammar)
    (hnew : List.Forall₂ (Renders m.grammar) (Passage.edit? ⟨i, line, step⟩).toList new)
    (houtputs : outputsOf m.grammar id t i (line :: lines) =
      (outputsOf m.grammar id t' (i + 1) lines).map (new ++ ·))
    (h : BodyAgrees u e n id t' (i + 1) lines) : BodyAgrees m e n id t i (line :: lines) := by
  cases h with
  | collected hout hrun hpos hrenders =>
    rw [hg] at hout hrenders
    refine .collected (by rw [houtputs, hout]; rfl) (run_cons_of_step hstep hrun) hpos ?_
    rw [List.filterMap_cons]
    cases he : Passage.edit? ⟨i, line, step⟩ with
    | none =>
      rw [he] at hnew
      cases hnew
      exact hrenders
    | some edit =>
      rw [he] at hnew
      obtain ⟨o, others, ho, hnone, rfl⟩ := List.forall₂_cons_left_iff.mp hnew
      cases hnone
      exact .cons ho hrenders
  | failed hout hrun =>
    rw [hg] at hout
    exact .failed (by rw [houtputs, hout]; rfl) (run_cons_of_step hstep hrun)

theorem bodyAgrees {d : Dialect} {e n : Nat} {b : Option Line} (id : String) {t : Tracker} {flags : List Bool}
    (hg : m.grammar = d.grammar) (hpos : m.position = .inside e n b)
    (hrunning : m.tracker.classify? m.grammar.comments lines = some flags)
    (hfresh : t.classify? m.grammar.comments lines = some flags)
    (hopen : closingIndex? m.grammar n t i lines = some none) : BodyAgrees m e n id t i lines := by
  induction lines generalizing m t i b flags with
  | nil => exact .collected rfl rfl hpos .nil
  | cons line lines ih =>
    obtain ⟨commentary, v, rest, hfeed, hrest, rfl⟩ := Tracker.classify?_cons_eq_some.mp hrunning
    obtain ⟨commentary', v', rest', hfeed', hrest', hsame⟩ := Tracker.classify?_cons_eq_some.mp hfresh
    obtain ⟨rfl, rfl⟩ := List.cons.inj hsame
    simp only [closingIndex?, hfeed'] at hopen
    split at hopen
    · cases hopen
    next hcloses =>
    obtain ⟨r, hr⟩ : ∃ r, { m with tracker := v }.act commentary i line = r := ⟨_, rfl⟩
    have hstep := step?_eq_some_iff.mpr ⟨commentary, v, hfeed, hr⟩
    have hreads := hr ▸ reads_act { m with tracker := v } commentary i line
    have hmap : ∀ x : Except Fault (List Output), x = x.map ([] ++ ·) := fun x ↦ by cases x <;> rfl
    cases hreads with
    | passed hout => exact absurd (hpos.symm.trans hout) (by simp)
    | entered hout => exact absurd (hpos.symm.trans hout) (by simp)
    | skipped hin hskip =>
      refine .cons [] hstep rfl .nil ?_ (ih hg hpos hrest hrest' hopen)
      rw [← hmap]
      cases commentary with
      | true => simp only [outputsOf, hfeed']
      | false =>
        have hcall := d.outputCall?_of_isBlankLine hskip
        rw [← hg] at hcall
        simp only [outputsOf, hfeed', hcall]
    | closed hin hcode hclose =>
      obtain ⟨rfl, rfl, rfl⟩ := Position.inside.inj (hpos.symm.trans hin)
      rw [Bool.or_eq_false_iff] at hcode
      simp [hcode.1, hclose] at hcloses
    | kept hin hcode _ hcall =>
      obtain ⟨rfl, rfl, rfl⟩ := Position.inside.inj (hpos.symm.trans hin)
      obtain ⟨rfl, -⟩ := Bool.or_eq_false_iff.mp hcode
      refine .cons [] hstep rfl .nil ?_ (ih hg rfl hrest hrest' hopen)
      rw [← hmap]
      simp only [outputsOf, hfeed', hcall]
    | @appended _ _ _ call args hin hcode _ hcall hargs =>
      obtain ⟨rfl, rfl, rfl⟩ := Position.inside.inj (hpos.symm.trans hin)
      obtain ⟨rfl, -⟩ := Bool.or_eq_false_iff.mp hcode
      refine .cons [⟨i, call.opening, args⟩] hstep rfl (.cons ⟨rfl, rfl, rfl⟩ .nil) ?_ (ih hg rfl hrest hrest' hopen)
      simp only [outputsOf, hfeed', hcall, hargs]
      rfl
    | failed hin hcode _ hcall hargs =>
      obtain ⟨rfl, -⟩ := Bool.or_eq_false_iff.mp hcode
      refine .failed ?_ (run_cons_of_error hstep)
      simp only [outputsOf, hfeed', hcall, hargs]

theorem inside_of_run {m' : Machine} {e n e' n' : Nat} {b b' : Option Line} {passages : List Passage}
    (hpos : m.position = .inside e n b) (hi : m.entryLine < i) (h : m.run i lines = (passages, .ok m'))
    (hpos' : m'.position = .inside e' n' b') : ∀ p ∈ passages, p.Copied ∨ p.Appended m.grammar := by
  obtain ⟨body, ending, rfl, hbody, hending⟩ := run_inside hpos hi h
  rw [hpos'] at hending
  cases hending
  simpa using hbody

/-- From the body of its block a machine comes to the end of the lines if there is nothing left that has to close
the block, or if the next line of code closes it. -/
theorem run_end {d : Dialect} {e n : Nat} {b : Option Line} (hg : m.grammar = d.grammar)
    (hpos : m.position = .inside e n b) (hi : m.entryLine < i)
    (hends : lines = [] ∧ d.grammar.runsToEnd = true ∨ ∃ closing after v, lines = closing :: after ∧
      m.tracker.feed? d.grammar.comments closing = some (false, v) ∧ d.grammar.closesBlock closing n = true)
    (hscan : (m.run i lines).2 ≠ .error .unscannable) :
    ∃ ending m', m.run i lines = (ending, .ok m') ∧ Ending d.grammar ending m'.position ∧ m'.unclosed? = none ∧
      (d ≠ .python → (ending.filterMap Passage.edit?).map (·.line) = [i]) := by
  rcases hends with ⟨rfl, hruns⟩ | ⟨closing, after, v, rfl, hfeed, hcloses⟩
  · refine ⟨[], m, rfl, hpos ▸ .open, by simp only [unclosed?, hpos, hg, hruns, if_true], fun hd ↦ ?_⟩
    rw [d.runsToEnd_grammar, decide_eq_true_iff] at hruns
    exact absurd hruns hd
  · have hblank := d.isBlankLine_of_closesBlock hcloses
    obtain ⟨indent, hindent⟩ : ∃ indent, b.getD (indentation closing ++ defaultBodyIndent) = indent := ⟨_, rfl⟩
    have hstep : m.step? i closing = some ({ m with position := .outside, tracker := v },
        .ok (.closed (d.grammar.renderReturn? indent) closing i)) := by
      simp [step?, hg, hfeed, act, hpos, hblank, hcloses, hindent]
    have hi' : m.entryLine < i + 1 ∨ i + 1 + after.length ≤ m.entryLine := .inl (Nat.lt_succ_of_lt hi)
    cases hv : v.after? m.grammar.comments after with
    | none =>
      have hstops := run_outside_unscannable (m := { m with position := .outside, tracker := v }) rfl hi' hv
      rw [run_cons_of_step hstep rfl, hstops] at hscan
      exact absurd rfl hscan
    | some w =>
      have hrest := run_outside (m := { m with position := .outside, tracker := v }) rfl hi' hv
      have hclosed : Passage.Closed d.grammar ⟨i, closing, .closed (d.grammar.renderReturn? indent) closing i⟩ :=
        ⟨indent, rfl⟩
      have hcopied : ∀ q ∈ copies (i + 1) after, q.Copied := fun q hq ↦ copied_of_mem_copies hq
      refine ⟨_, _, run_cons_of_step hstep hrest, .closed hclosed hcopied, rfl, fun hd ↦ ?_⟩
      rcases hclosed.texts_eq with ⟨hpython, -⟩ | ⟨-, -, hedit⟩
      · exact absurd hpython hd
      · rw [List.filterMap_cons_some hedit, Passage.edits_of_copied hcopied, List.map_singleton]

end Machine

namespace Snippet

/-- The lines after an entry line up to the closing line of its block and with that line. -/
def blockLines (s : Snippet) (block : Block) : List Line :=
  (s.lines.drop (block.start + 1)).take (block.stop - block.start)

/-- The instrumented script and the answer key of one snippet are about the same block and the same calls. -/
structure Agrees (s : Snippet) : Prop where
  ok_iff : (∃ script, s.transform = .ok script) ↔ ∃ outputs, s.outputs = .ok outputs
  error_iff : ∀ fault, s.transform = .error fault ↔ s.outputs = .error fault
  sources : ∀ script, s.transform = .ok script →
    ∀ e ∈ s.transformation.edits, s.lines[e.line]? = some e.source
  calls : ∀ script outputs, s.transform = .ok script → s.outputs = .ok outputs →
    List.Forall₂ (Renders s.grammar) (s.transformation.edits.filter (·.kind = .outputCall)) outputs ∧
      script.appendedCalls = outputs.length
  closing : ∀ script block, s.transform = .ok script → s.entryBlock = .ok block → s.dialect ≠ .python →
    (s.transformation.edits.filter (·.kind = .blockEnd)).map (·.line) = [block.stop]

variable {s : Snippet} {block : Block} {front body rest : List Line} {entry : Line} {passages : List Passage}
  {m : Machine}

theorem agrees_of_error {fault : Fault} (h : s.transform = .error fault) (h' : s.outputs = .error fault) :
    s.Agrees where
  ok_iff := by simp [h, h']
  error_iff f := by rw [h, h', Except.error.injEq, Except.error.injEq]
  sources _ hs := by simp [h] at hs
  calls _ _ hs := by simp [h] at hs
  closing _ _ hs := by simp [h] at hs

theorem blockLines_eq (h : block.Parts s front entry body rest) : s.blockLines block = body ++ rest.take 1 := by
  have hdrop : s.lines.drop (block.start + 1) = body ++ rest := by
    rw [h.lines_eq, h.start_eq, List.append_cons, List.drop_left' (by simp)]
  have hlength : block.stop - block.start = body.length + 1 := by
    rw [h.start_eq, h.stop_eq]
    omega
  rw [blockLines, hdrop, hlength, List.take_length_add_append]

theorem outputs_eq (hblock : s.entryBlock = .ok block) (h : block.Parts s front entry body rest) :
    s.outputs = outputsOf s.grammar s.id {} (front.length + 1) body := by
  have hdrop : s.lines.drop (block.start + 1) = body ++ rest := by
    rw [h.lines_eq, h.start_eq, List.append_cons, List.drop_left' (by simp)]
  have hlength : block.stop - (block.start + 1) = body.length := by
    rw [h.start_eq, h.stop_eq]
    omega
  simp only [outputs, hblock, bind, Except.bind, outputsIn]
  rw [hdrop, hlength, List.take_left' rfl, h.start_eq]

theorem transform_of_run (hblock : s.entryBlock = .ok block)
    (hrun : Machine.run { grammar := s.grammar, entryLine := block.start } 0 s.lines = (passages, .ok m))
    (hclosed : m.unclosed? = none) :
    s.transform = .ok (s.scriptOf passages) ∧ s.transformation.edits = passages.filterMap Passage.edit? := by
  simp only [transform, transformation, hblock, hrun, hclosed, and_self]

theorem transform_of_unclosedCall {k : Nat} (hblock : s.entryBlock = .ok block)
    (hrun : Machine.run { grammar := s.grammar, entryLine := block.start } 0 s.lines =
      (passages, .error (.unclosedCall k))) : s.transform = .error (.defect (.unclosedCall s.id k)) := by
  simp only [transform, transformation, hblock, hrun]

theorem transform_of_unscannable (hblock : s.entryBlock = .ok block)
    (hrun : (Machine.run { grammar := s.grammar, entryLine := block.start } 0 s.lines).2 = .error .unscannable) :
    s.transform = .error .unscannable := by
  rcases hr : Machine.run { grammar := s.grammar, entryLine := block.start } 0 s.lines with ⟨ps, outcome⟩
  rw [hr] at hrun
  cases hrun
  simp only [transform, transformation, hblock, hr]

theorem agrees_of_run {outputs : List Output} {first : Passage} {ending : List Passage}
    (hblock : s.entryBlock = .ok block) (houtputs : s.outputs = .ok outputs)
    (hrun : Machine.run { grammar := s.grammar, entryLine := block.start } 0 s.lines =
      (copies 0 front ++ first :: (passages ++ ending), .ok m))
    (hlayout : Layout s.grammar front first passages ending m.position) (hclosed : m.unclosed? = none)
    (hrenders : List.Forall₂ (Renders s.grammar) (passages.filterMap Passage.edit?) outputs)
    (hstop : s.dialect ≠ .python → (ending.filterMap Passage.edit?).map (·.line) = [block.stop]) : s.Agrees := by
  obtain ⟨htransform, hedits⟩ := transform_of_run hblock hrun hclosed
  obtain ⟨hgrammar, -, -⟩ := Machine.frame_of_run hrun
  have hordered := ordered_edits hlayout (outside_of_closed (d := s.dialect) hgrammar hclosed) rfl hrun
  constructor
  case ok_iff => simp [htransform, houtputs]
  case error_iff => simp [htransform, houtputs]
  case sources =>
    intro script _ e he
    exact Machine.getElem?_of_mem_edits hrun (hedits ▸ he)
  case calls =>
    intro script outputs' hscript houtputs'
    obtain rfl := Except.ok.inj (htransform.symm.trans hscript)
    obtain rfl := Except.ok.inj (houtputs.symm.trans houtputs')
    rw [hedits, hordered.filter_outputCall]
    refine ⟨hrenders, ?_⟩
    rw [← appendedCalls_scriptOf, List.countP_eq_length_filter, hordered.filter_outputCall, hrenders.length_eq]
  case closing =>
    intro script block' _ hblock' hd
    obtain rfl := Except.ok.inj (hblock.symm.trans hblock')
    rw [hedits, hordered.filter_blockEnd, hstop hd]

theorem ends_of_classify? {u u' : Tracker} {last : List Bool} (h : block.Parts s front entry body rest)
    (hu' : Tracker.after? s.grammar.comments {} body = some u')
    (hlast : u.classify? s.grammar.comments (rest.take 1) = some last)
    (hlast' : u'.classify? s.grammar.comments (rest.take 1) = some last) :
    rest = [] ∧ s.grammar.runsToEnd = true ∨ ∃ closing after v, rest = closing :: after ∧
      u.feed? s.grammar.comments closing = some (false, v) ∧
      s.grammar.closesBlock closing (indentWidth entry) = true := by
  rcases h.ends with ⟨rfl, hruns⟩ | ⟨closing, after, v, w, rfl, hv, hw, hcloses⟩
  · exact .inl ⟨rfl, hruns⟩
  · obtain rfl := Option.some.inj (hu'.symm.trans hv)
    obtain ⟨c, x, _, hx, -, rfl⟩ := Tracker.classify?_cons_eq_some.mp hlast
    obtain ⟨c', _, _, hy, -, hsame⟩ := Tracker.classify?_cons_eq_some.mp hlast'
    obtain ⟨rfl, -⟩ := Prod.mk.inj (Option.some.inj (hw.symm.trans hy))
    obtain ⟨rfl, -⟩ := List.cons.inj hsame
    exact .inr ⟨closing, after, x, rfl, hx, hcloses⟩

/-- Trackers that tell code and commentary apart alike on the lines of the block, the fresh one of the scans and
the one that the machine has kept since the first line, lead both sides to the same block and calls. -/
theorem agrees_of_classify? {running : Tracker} {flags : List Bool} (hblock : s.entryBlock = .ok block)
    (hrunning : Tracker.after? s.grammar.comments {} (s.lines.take (block.start + 1)) = some running)
    (h : running.classify? s.grammar.comments (s.blockLines block) = some flags)
    (hfresh : Tracker.classify? s.grammar.comments {} (s.blockLines block) = some flags)
    (hscan : s.transform ≠ .error .unscannable) : s.Agrees := by
  obtain ⟨front, entry, body, rest, hparts⟩ := Block.exists_parts hblock
  have houtputs := outputs_eq hblock hparts
  rw [blockLines_eq hparts] at h hfresh
  obtain ⟨first, last, u, u', hbody, hbody', hu, hu', hlast, hlast'⟩ := Tracker.classify?_front h hfresh
  let m : Machine := { grammar := s.grammar, entryLine := block.start }
  have htake : s.lines.take (block.start + 1) = front ++ [entry] := by
    rw [hparts.lines_eq, hparts.start_eq, List.append_cons, List.take_left' (by simp)]
  have hentry : m.run 0 (front ++ entry :: (body ++ rest)) = _ :=
    Machine.run_entry rfl hparts.start_eq (htake ▸ hrunning)
  have hin : (m.afterEntry entry running).position = .inside front.length (indentWidth entry) none := by
    simp only [Machine.afterEntry, m, hparts.start_eq]
  have hagrees := Machine.bodyAgrees (d := s.dialect) s.id rfl hin hbody hbody' hparts.open_body
  rw [← hparts.lines_eq] at hentry
  cases hagrees with
  | @failed k passages hout hrun =>
    rw [Machine.run_append, hrun] at hentry
    exact agrees_of_error (transform_of_unclosedCall hblock hentry) (houtputs.trans hout)
  | @collected outputs passages m' b hout hrun hpos hrenders =>
    obtain ⟨hgrammar, hentryLine, htracker⟩ := Machine.frame_of_run hrun
    obtain rfl := Option.some.inj (hu.symm.trans htracker)
    have hi : (m.afterEntry entry running).entryLine < front.length + 1 := by
      simp only [Machine.afterEntry, m, hparts.start_eq, Nat.lt_succ_self]
    have hinside := Machine.inside_of_run hin hi hrun hpos
    rw [Machine.run_append_of_ok hrun] at hentry
    have hrest : (m'.run (front.length + 1 + body.length) rest).2 ≠ .error .unscannable := fun hstop ↦
      hscan (transform_of_unscannable hblock (by rw [hentry, hstop]))
    obtain ⟨ending, m'', hending, hends, hclosed, hstop⟩ := Machine.run_end (d := s.dialect) hgrammar hpos
      (hentryLine ▸ Nat.lt_add_right _ hi) (ends_of_classify? hparts hu' hlast hlast') hrest
    rw [hending] at hentry
    exact agrees_of_run hblock (houtputs.trans hout) hentry ⟨rfl, rfl, hinside, hends⟩ hclosed hrenders
      (hparts.stop_eq ▸ hstop)

/-- The scan for the closing line has an answer for every line of the block it finds. -/
theorem exists_classify?_blockLines (hblock : s.entryBlock = .ok block) :
    ∃ flags, Tracker.classify? s.grammar.comments {} (s.blockLines block) = some flags := by
  obtain ⟨front, entry, body, rest, hparts⟩ := Block.exists_parts hblock
  obtain ⟨u, hu⟩ := exists_after?_of_open hparts.open_body
  rw [← Option.isSome_iff_exists, Tracker.classify?_isSome, blockLines_eq hparts, Tracker.after?_append, hu,
    Option.bind_some]
  rcases hparts.ends with ⟨rfl, -⟩ | ⟨closing, after, u', v, rfl, hu', hv, -⟩
  · rfl
  · obtain rfl := Option.some.inj (hu.symm.trans hu')
    rw [List.take_succ_cons, List.take_zero, Tracker.after?, hv]
    rfl

/-- The machine that instruments a snippet and the scans behind its answer key find the same calls and the same closing
line, or fail alike, unless a comment is left open on the entry line or before it. -/
theorem agrees_of_entered_outside (hscan : s.transform ≠ .error .unscannable)
    (h : ∀ block, s.entryBlock = .ok block →
      Tracker.after? s.grammar.comments {} (s.lines.take (block.start + 1)) = some ⟨false⟩) : s.Agrees := by
  cases hblock : s.entryBlock with
  | error fault =>
    have htransform : s.transform = .error fault := by simp only [transform, transformation, hblock]
    have houtputs : s.outputs = .error fault := by simp only [outputs, hblock, bind, Except.bind]
    exact agrees_of_error htransform houtputs
  | ok block =>
    obtain ⟨flags, hflags⟩ := exists_classify?_blockLines hblock
    exact agrees_of_classify? hblock (h block hblock) hflags hflags hscan

theorem agrees_of_entered_outside_twice : twice.transform ≠ .error .unscannable ∧
    (∀ block, twice.entryBlock = .ok block →
      Tracker.after? twice.grammar.comments {} (twice.lines.take (block.start + 1)) = some ⟨false⟩) ∧
    twice.Agrees := by
  obtain ⟨script, h⟩ := exists_transform_twice
  have hscan : twice.transform ≠ .error .unscannable := by simp [h]
  have houtside : ∀ block, twice.entryBlock = .ok block →
      Tracker.after? twice.grammar.comments {} (twice.lines.take (block.start + 1)) = some ⟨false⟩ := by
    intro block hblock
    have hentry : twice.entryLine = .ok 2 := by decide +kernel
    have hstart : block.start = 2 := Except.ok.inj ((entryLine_of_entryBlock hblock).symm.trans hentry)
    rw [hstart]
    decide +kernel
  exact ⟨hscan, houtside, agrees_of_entered_outside hscan houtside⟩

/-- The two scans start afresh after the entry line, the machine's tracker does not. They tell code and commentary
apart alike as long as each line at which the trackers still differ opens a comment itself. -/
theorem classified_alike_iff {running : Tracker} {n : Nat} {flags flags' : List Bool}
    (hblock : s.entryBlock = .ok block)
    (hrunning : Tracker.after? s.grammar.comments {} (s.lines.take (block.start + 1)) = some running)
    (h : running.classify? s.grammar.comments ((s.lines.drop (block.start + 1)).take n) = some flags)
    (h' : Tracker.classify? s.grammar.comments {} ((s.lines.drop (block.start + 1)).take n) = some flags') :
    (flags = flags' ↔ ∀ front line back, (s.lines.drop (block.start + 1)).take n = front ++ line :: back →
        running.after? s.grammar.comments front ≠ Tracker.after? s.grammar.comments {} front →
          opensComment s.grammar.comments line = true) ∧
      (running.inBlock = false → flags = flags') ∧
      (flags = flags' → block.stop - block.start ≤ n → s.transform ≠ .error .unscannable → s.Agrees) := by
  have houtside : running.inBlock = false → flags = flags' := by
    intro hin
    obtain rfl : running = {} := by rw [← hin]
    exact Option.some.inj (h.symm.trans h')
  refine ⟨?_, houtside, ?_⟩
  · by_cases hstyle : s.grammar.comments.block = none
    · rw [Tracker.after?_of_block_none hstyle] at hrunning
      obtain rfl := Option.some.inj hrunning
      exact iff_of_true (houtside rfl) fun front line back _ hne ↦ absurd rfl hne
    · exact Tracker.classify?_eq_iff hstyle h h'
  · rintro rfl hn hscan
    have hfront : s.blockLines block = ((s.lines.drop (block.start + 1)).take n).take (block.stop - block.start) := by
      rw [blockLines, List.take_take, Nat.min_eq_left hn]
    rw [← List.take_append_drop (block.stop - block.start) (List.take n _), ← hfront] at h h'
    obtain ⟨first, rest, u, u', hfirst, hfirst', -⟩ := Tracker.classify?_front h h'
    exact agrees_of_classify? hblock hrunning hfirst hfirst' hscan

def rejoined : Snippet where
  id := "rejoined"
  dialect := .javaScript
  lines := ["function main() \x7b /* note".toList, "// */".toList, "  console.log(1);".toList, "\x7d".toList]

theorem agrees_rejoined : rejoined.entryBlock = .ok ⟨0, 3, true⟩ ∧
    Tracker.after? rejoined.grammar.comments {} (rejoined.lines.take 1) = some ⟨true⟩ ∧ rejoined.Agrees := by
  have hblock : rejoined.entryBlock = .ok ⟨0, 3, true⟩ := by decide +kernel
  have hrunning : Tracker.after? rejoined.grammar.comments {} (rejoined.lines.take 1) = some ⟨true⟩ := by
    decide +kernel
  have h : Tracker.classify? rejoined.grammar.comments ⟨true⟩ ((rejoined.lines.drop 1).take 3) =
      some [true, false, false] := by decide +kernel
  have h' : Tracker.classify? rejoined.grammar.comments {} ((rejoined.lines.drop 1).take 3) =
      some [true, false, false] := by decide +kernel
  have hsome : rejoined.transform.toOption.isSome = true := by decide +kernel
  have hscan : rejoined.transform ≠ .error .unscannable := fun hstop ↦ by simp [hstop, Except.toOption] at hsome
  exact ⟨hblock, hrunning, (classified_alike_iff hblock hrunning h h').2.2 rfl (by decide) hscan⟩

def hidden : Snippet where
  id := "hidden"
  dialect := .javaScript
  lines := ["function main() \x7b /* note".toList, "  console.log(1); */".toList, "  console.log(2);".toList,
    "\x7d".toList]

theorem hidden_classified_apart : hidden.entryBlock = .ok ⟨0, 3, true⟩ ∧
    Tracker.after? hidden.grammar.comments {} (hidden.lines.take 1) = some ⟨true⟩ ∧
    Tracker.classify? hidden.grammar.comments ⟨true⟩ (hidden.lines.drop 1) = some [true, false, false] ∧
    Tracker.classify? hidden.grammar.comments {} (hidden.lines.drop 1) = some [false, false, false] ∧
    hidden.expressions = .ok [['1'], ['2']] ∧ hidden.transform.toOption.map (·.appendedCalls) = some 1 := by
  decide +kernel

end Snippet
end AnswerKey
