import AnswerKey.Proofs.Script.Passages
import AnswerKey.Proofs.Snippet.Block
import Mathlib.Data.List.ReduceOption

namespace AnswerKey

open Text Code

/-- The lines with the edited ones exchanged for what they became. -/
def replay (edits : List Edit) (lines : List Line) : List Line :=
  lines.zipIdx.flatMap fun (line, i) ↦
    match edits.find? (·.line = i) with
    | some edit => edit.emitted
    | none => [line]

/-- A script and a record of edits that describe each other, for a snippet whose entry point has the block. -/
structure Recorded (s : Snippet) (block : Block) (edits : List Edit) (script : Script) : Prop where
  text_eq : script.text = Script.endedText (replay edits s.lines ++ [[]])
  increasing : (edits.map (·.line)).Pairwise (· < ·)
  sources : ∀ e ∈ edits, s.lines[e.line]? = some e.source
  origins_length : script.origins.length = s.lines.length + 2
  origins_numbered : script.origins.reduceOption = List.range s.lines.length
  kept : ∀ k j : Nat, script.origins[k]? = some (some j) →
    script.lines[k]? = s.lines[j]? ∨ j = block.start ∨ ∃ e ∈ edits, e.kind = .outputCall ∧ e.line = j
  entry : ∃ e, edits.filter (·.kind = .entryPoint) = [e] ∧ e.line = block.start ∧ e.emitted ≠ [] ∧
    script.collectorLine = block.start ∧ e.emitted <+: script.lines.drop script.collectorLine
  closings : edits.countP (·.kind = .blockEnd) = if s.dialect = .python then 0 else 1
  calls_inside : ∀ e ∈ edits, e.kind = .outputCall →
    block.start < e.line ∧ ∀ f ∈ edits, f.kind = .blockEnd → e.line < f.line
  calls_counted : edits.countP (·.kind = .outputCall) = script.appendedCalls

namespace Passage

variable {p : Passage} {d : Dialect} {passages : List Passage}

theorem edits_increasing (h : (passages.map (·.index)).Pairwise (· < ·)) :
    ((passages.filterMap edit?).map (·.line)).Pairwise (· < ·) := by
  refine h.sublist ?_
  clear h
  induction passages with
  | nil => exact .slnil
  | cons p passages ih =>
    cases he : p.edit? with
    | none => simpa [he] using ih.cons p.index
    | some e =>
      obtain ⟨kind, -, rfl⟩ := edit?_eq_some.mp he
      simpa [he] using ih.cons_cons p.index

theorem find?_edits (h : (passages.map (·.index)).Pairwise (· < ·)) (hp : p ∈ passages) :
    (passages.filterMap edit?).find? (·.line = p.index) = p.edit? := by
  induction passages with
  | nil => cases hp
  | cons q passages ih =>
    obtain ⟨hq, hrest⟩ := List.pairwise_cons.mp h
    have hlater {r : Passage} (hr : r ∈ passages) : q.index < r.index := hq _ (List.mem_map_of_mem hr)
    rcases List.mem_cons.mp hp with rfl | hp
    · cases he : p.edit? with
      | none =>
        -- nothing that comes later is about this line
        rw [List.filterMap_cons_none he, List.find?_eq_none]
        intro e hmem
        obtain ⟨r, hr, hre⟩ := List.mem_filterMap.mp hmem
        obtain ⟨kind, -, rfl⟩ := edit?_eq_some.mp hre
        simpa using Nat.ne_of_gt (hlater hr)
      | some e =>
        obtain ⟨kind, -, rfl⟩ := edit?_eq_some.mp he
        rw [List.filterMap_cons_some he, List.find?_cons_of_pos (by simp)]
    · cases he : q.edit? with
      | none => rw [List.filterMap_cons_none he, ih hrest hp]
      | some e =>
        obtain ⟨kind, -, rfl⟩ := edit?_eq_some.mp he
        rw [List.filterMap_cons_some he, List.find?_cons_of_neg (by simpa using Nat.ne_of_lt (hlater hp)), ih hrest hp]

theorem replay_edits {lines : List Line} (hnum : passages.map (fun p ↦ (p.line, p.index)) = lines.zipIdx)
    (hinc : (passages.map (·.index)).Pairwise (· < ·)) (hmade : ∀ p ∈ passages, p.Made d) :
    replay (passages.filterMap edit?) lines = passages.flatMap texts := by
  unfold replay
  rw [← hnum, List.flatMap_map]
  refine List.flatMap_congr fun p hp ↦ ?_
  dsimp only
  rw [find?_edits hinc hp]
  cases he : p.edit? with
  | none => exact ((hmade p hp).texts_of_edit_none (by simpa [edit?] using he)).symm
  | some e =>
    obtain ⟨kind, -, rfl⟩ := edit?_eq_some.mp he
    rfl

end Passage

namespace Machine

variable {m m' : Machine} {lines : List Line} {passages : List Passage}

theorem indices_of_run (h : m.run 0 lines = (passages, .ok m')) :
    passages.map (·.index) = List.range lines.length := by
  have hnum := congrArg (List.map Prod.snd) (passages_of_run h)
  rw [List.map_map, List.zipIdx_map_snd, ← List.range_eq_range'] at hnum
  exact hnum

theorem getElem?_of_mem_run (h : m.run 0 lines = (passages, .ok m')) {p : Passage} (hp : p ∈ passages) :
    lines[p.index]? = some p.line := by
  have hmem : (p.line, p.index) ∈ lines.zipIdx := by
    rw [← passages_of_run h]
    exact List.mem_map_of_mem hp
  exact List.mem_zipIdx_iff_getElem?.mp hmem

theorem getElem?_of_mem_edits (h : m.run 0 lines = (passages, .ok m')) {e : Edit}
    (he : e ∈ passages.filterMap Passage.edit?) : lines[e.line]? = some e.source := by
  obtain ⟨p, hp, hpe⟩ := List.mem_filterMap.mp he
  obtain ⟨kind, -, rfl⟩ := Passage.edit?_eq_some.mp hpe
  exact getElem?_of_mem_run h hp

end Machine

namespace Snippet

variable {s : Snippet} {script : Script}

theorem transform_ok (h : s.transform = .ok script) :
    ∃ block passages m, s.entryBlock = .ok block ∧
      Machine.run { grammar := s.grammar, entryLine := block.start } 0 s.lines = (passages, .ok m) ∧
      m.unclosed? = none ∧ script = s.scriptOf passages ∧
      s.transformation.edits = passages.filterMap Passage.edit? := by
  unfold transform transformation at *
  cases hb : s.entryBlock with
  | error fault => simp [hb] at h
  | ok block =>
    rcases hr : Machine.run { grammar := s.grammar, entryLine := block.start } 0 s.lines with ⟨passages, outcome⟩
    simp only [hb, hr] at h ⊢
    split at h
    · cases h
    · cases h
    · next m =>
      split at h
      · cases h
      · next hclosed => exact ⟨block, passages, m, rfl, hr, hclosed, (Except.ok.inj h).symm, rfl⟩

theorem dialect_of_transform (h : s.transform = .ok script) : script.dialect = s.dialect := by
  obtain ⟨block, passages, m, -, -, -, rfl, -⟩ := transform_ok h
  rfl

theorem outside_of_closed {d : Dialect} {m : Machine} (hg : m.grammar = d.grammar) (h : m.unclosed? = none) :
    d ≠ .python → m.position = .outside := by
  intro hd
  unfold Machine.unclosed? at h
  split at h
  · next hpos => exact hpos
  · rw [hg, d.runsToEnd_grammar] at h
    simp [hd] at h

/-- Edits in the order of a layout: the entry line, then the output calls, then the line that closes the block. -/
structure Ordered (d : Dialect) (edits : List Edit) (e : Edit) (calls closings : List Edit) : Prop where
  edits_eq : edits = e :: (calls ++ closings)
  entry_kind : e.kind = .entryPoint
  calls_kind : ∀ c ∈ calls, c.kind = .outputCall
  closings_kind : ∀ f ∈ closings, f.kind = .blockEnd
  closings_length : closings.length = if d = .python then 0 else 1
  increasing : (edits.map (·.line)).Pairwise (· < ·)

namespace Ordered

variable {d : Dialect} {edits calls closings : List Edit} {e : Edit}

theorem filter_entryPoint (h : Ordered d edits e calls closings) : edits.filter (·.kind = .entryPoint) = [e] := by
  have hcalls : calls.filter (·.kind = .entryPoint) = [] :=
    List.filter_eq_nil_iff.mpr fun c hc ↦ by simp [h.calls_kind c hc]
  have hclosings : closings.filter (·.kind = .entryPoint) = [] :=
    List.filter_eq_nil_iff.mpr fun f hf ↦ by simp [h.closings_kind f hf]
  rw [h.edits_eq, List.filter_cons_of_pos (by simp [h.entry_kind]), List.filter_append, hcalls, hclosings,
    List.append_nil]

theorem filter_outputCall (h : Ordered d edits e calls closings) : edits.filter (·.kind = .outputCall) = calls := by
  have hcalls : calls.filter (·.kind = .outputCall) = calls :=
    List.filter_eq_self.mpr fun c hc ↦ by simp [h.calls_kind c hc]
  have hclosings : closings.filter (·.kind = .outputCall) = [] :=
    List.filter_eq_nil_iff.mpr fun f hf ↦ by simp [h.closings_kind f hf]
  rw [h.edits_eq, List.filter_cons_of_neg (by simp [h.entry_kind]), List.filter_append, hcalls, hclosings,
    List.append_nil]

theorem filter_blockEnd (h : Ordered d edits e calls closings) : edits.filter (·.kind = .blockEnd) = closings := by
  have hcalls : calls.filter (·.kind = .blockEnd) = [] :=
    List.filter_eq_nil_iff.mpr fun c hc ↦ by simp [h.calls_kind c hc]
  have hclosings : closings.filter (·.kind = .blockEnd) = closings :=
    List.filter_eq_self.mpr fun f hf ↦ by simp [h.closings_kind f hf]
  rw [h.edits_eq, List.filter_cons_of_neg (by simp [h.entry_kind]), List.filter_append, hcalls, hclosings,
    List.nil_append]

theorem call_between (h : Ordered d edits e calls closings) {c : Edit} (hc : c ∈ edits)
    (hkind : c.kind = .outputCall) :
    e.line < c.line ∧ ∀ f ∈ edits, f.kind = .blockEnd → c.line < f.line := by
  have hsorted := h.increasing
  rw [h.edits_eq, List.map_cons, List.map_append, List.pairwise_cons, List.pairwise_append] at hsorted
  obtain ⟨hfirst, -, -, hbetween⟩ := hsorted
  have hcall : c ∈ calls := by
    rw [h.edits_eq, List.mem_cons, List.mem_append] at hc
    rcases hc with rfl | hc | hc
    · cases h.entry_kind.symm.trans hkind
    · exact hc
    · cases (h.closings_kind c hc).symm.trans hkind
  refine ⟨hfirst _ (List.mem_append_left _ (List.mem_map_of_mem hcall)), fun f hf hend ↦ ?_⟩
  have hclosing : f ∈ closings := by
    rw [h.edits_eq, List.mem_cons, List.mem_append] at hf
    rcases hf with rfl | hf | hf
    · cases h.entry_kind.symm.trans hend
    · cases (h.calls_kind f hf).symm.trans hend
    · exact hf
  exact hbetween _ (List.mem_map_of_mem hcall) _ (List.mem_map_of_mem hclosing)

end Ordered

section

variable {block : Block} {passages : List Passage} {m : Machine} {front : List Line} {entry : Passage}
  {body ending : List Passage}

theorem ordered_edits (hlayout : Layout s.grammar front entry body ending m.position)
    (hout : s.dialect ≠ .python → m.position = .outside)
    (hpassages : passages = copies 0 front ++ entry :: (body ++ ending))
    (hrun : Machine.run { grammar := s.grammar, entryLine := block.start } 0 s.lines = (passages, .ok m)) :
    Ordered s.dialect (passages.filterMap Passage.edit?) ⟨front.length, .entryPoint, entry.line, entry.texts⟩
      (body.filterMap Passage.edit?) (ending.filterMap Passage.edit?) where
  edits_eq := by rw [hpassages, hlayout.edits_eq]
  entry_kind := rfl
  calls_kind := Passage.edits_of_body hlayout.inside
  closings_kind := (hlayout.ends.edits hout).1
  closings_length := (hlayout.ends.edits hout).2.1
  increasing := Passage.edits_increasing (by
    rw [Machine.indices_of_run hrun]
    exact List.pairwise_lt_range)

theorem lines_scriptOf : (s.scriptOf passages).lines = passages.flatMap Passage.texts ++ [[]] := by
  simp only [Script.lines, scriptOf, List.map_append, List.map_flatMap]
  rfl

theorem length_origins_scriptOf (hlayout : Layout s.grammar front entry body ending m.position)
    (hout : s.dialect ≠ .python → m.position = .outside)
    (hpassages : passages = copies 0 front ++ entry :: (body ++ ending))
    (hrun : Machine.run { grammar := s.grammar, entryLine := block.start } 0 s.lines = (passages, .ok m)) :
    (s.scriptOf passages).origins.length = s.lines.length + 2 := by
  have hlength : passages.length = s.lines.length := by
    rw [← List.length_map (·.index), Machine.indices_of_run hrun, List.length_range]
  have hlines : (s.scriptOf passages).lines = _ := lines_scriptOf
  have hcount := congrArg List.length hlines
  rw [hpassages, List.length_append, hlayout.length_texts hout, ← hpassages, hlength] at hcount
  simpa [Script.lines, Script.origins] using hcount

theorem collectorLine_scriptOf (hlayout : Layout s.grammar front entry body ending m.position)
    (hpassages : passages = copies 0 front ++ entry :: (body ++ ending)) :
    (s.scriptOf passages).collectorLine = front.length := by
  rw [scriptOf, hpassages, hlayout.linesBeforeEntry_eq]

theorem entry_prefix_scriptOf (hpassages : passages = copies 0 front ++ entry :: (body ++ ending)) :
    entry.texts <+: (s.scriptOf passages).lines.drop front.length := by
  rw [lines_scriptOf, hpassages, List.flatMap_append, List.flatMap_cons, List.append_assoc,
    List.drop_left' (Passage.length_texts_copies 0 front), List.append_assoc]
  exact List.prefix_append _ _

theorem origins_scriptOf (hmade : ∀ p ∈ passages, p.Made s.dialect) :
    (s.scriptOf passages).origins.reduceOption = passages.map (·.index) := by
  have hone : ∀ p ∈ passages, p.step.emitted.filterMap (·.origin) = [p.index] := fun p hp ↦ (hmade p hp).origins
  calc (s.scriptOf passages).origins.reduceOption
      = passages.flatMap fun p ↦ p.step.emitted.filterMap (·.origin) := by
        simp [Script.origins, scriptOf, List.reduceOption, List.filterMap_map, List.filterMap_flatMap]
    _ = passages.flatMap fun p ↦ [p.index] := List.flatMap_congr hone
    _ = passages.map (·.index) := List.map_eq_flatMap.symm

theorem appendedCalls_scriptOf :
    (passages.filterMap Passage.edit?).countP (·.kind = .outputCall) = (s.scriptOf passages).appendedCalls := by
  rw [List.countP_filterMap]
  refine List.countP_congr fun p _ ↦ ?_
  cases hedit : p.step.edit with
  | none => simp [Passage.edit?, hedit]
  | some kind => simp [Passage.edit?, hedit]

/-- Where a line of the script stands for a line of the snippet, it equals that line unless an edit of another
kind than the closing of the block was made there. -/
theorem kept_scriptOf (hmade : ∀ p ∈ passages, p.Made s.dialect)
    (hrun : Machine.run { grammar := s.grammar, entryLine := block.start } 0 s.lines = (passages, .ok m))
    {k j : Nat} (hk : (s.scriptOf passages).origins[k]? = some (some j)) :
    (s.scriptOf passages).lines[k]? = s.lines[j]? ∨
      ∃ e ∈ passages.filterMap Passage.edit?, (e.kind = .entryPoint ∨ e.kind = .outputCall) ∧ e.line = j := by
  rw [Script.origins, List.getElem?_map, Option.map_eq_some_iff] at hk
  obtain ⟨em, hem, horigin⟩ := hk
  have hline : (s.scriptOf passages).lines[k]? = some em.text := by
    rw [Script.lines, List.getElem?_map, hem, Option.map_some]
  have hmem := List.mem_of_getElem? hem
  rw [scriptOf, List.mem_append, List.mem_flatMap, List.mem_singleton] at hmem
  rcases hmem with ⟨p, hp, hpe⟩ | rfl
  · obtain ⟨rfl, hkept⟩ := (hmade p hp).kept hpe horigin
    have hedit {kind : EditKind} (h : p.step.edit = some kind) :
        ∃ e ∈ passages.filterMap Passage.edit?, e.kind = kind ∧ e.line = p.index :=
      ⟨_, List.mem_filterMap.mpr ⟨p, hp, Passage.edit?_eq_some.mpr ⟨kind, h, rfl⟩⟩, rfl, rfl⟩
    rcases hkept with htext | hentry | hcall
    · rw [hline, htext, Machine.getElem?_of_mem_run hrun hp]
      exact .inl rfl
    · obtain ⟨e, he, hkind, hindex⟩ := hedit hentry
      exact .inr ⟨e, he, .inl hkind, hindex⟩
    · obtain ⟨e, he, hkind, hindex⟩ := hedit hcall
      exact .inr ⟨e, he, .inr hkind, hindex⟩
  · cases horigin

end

theorem layout_of_transform (h : s.transform = .ok script) :
    ∃ block passages m front entry body ending, s.entryBlock = .ok block ∧ front.length = block.start ∧
      Machine.run { grammar := s.grammar, entryLine := block.start } 0 s.lines = (passages, .ok m) ∧
      (s.dialect ≠ .python → m.position = .outside) ∧ passages = copies 0 front ++ entry :: (body ++ ending) ∧
      Layout s.grammar front entry body ending m.position ∧ script = s.scriptOf passages ∧
      s.transformation.edits = passages.filterMap Passage.edit? := by
  obtain ⟨block, passages, m, hblock, hrun, hclosed, rfl, hedits⟩ := transform_ok h
  obtain ⟨front, line, back, hlines, hfront⟩ := split_of_entryLine (entryLine_of_entryBlock hblock)
  obtain ⟨hgrammar, -, -⟩ := Machine.frame_of_run hrun
  obtain ⟨entry, body, ending, hpassages, hlayout⟩ := Machine.run_layout rfl hfront.symm (hlines ▸ hrun)
  exact ⟨block, passages, m, front, entry, body, ending, hblock, hfront, hrun,
    outside_of_closed (d := s.dialect) hgrammar hclosed, hpassages, hlayout, rfl, hedits⟩

/-- An instrumented script and the record of its edits describe each other: the script can be rebuilt from the snippet
and the record, and every line of the snippet is found again in the script. -/
theorem transform_recorded (h : s.transform = .ok script) :
    ∃ block, s.entryBlock = .ok block ∧ Recorded s block s.transformation.edits script := by
  obtain ⟨block, passages, m, hblock, hrun, hclosed, rfl, hedits⟩ := transform_ok h
  obtain ⟨front, line, back, hlines, hfront⟩ := split_of_entryLine (entryLine_of_entryBlock hblock)
  obtain ⟨hgrammar, -, -⟩ := Machine.frame_of_run hrun
  have hout := outside_of_closed (d := s.dialect) hgrammar hclosed
  obtain ⟨entry, body, ending, hpassages, hlayout⟩ := Machine.run_layout rfl hfront.symm (hlines ▸ hrun)
  have hordered := ordered_edits hlayout hout hpassages hrun
  have hmade : ∀ p ∈ passages, p.Made s.dialect := hpassages ▸ hlayout.made
  have hindices := Machine.indices_of_run hrun
  refine ⟨block, hblock, hedits ▸ ?_⟩
  constructor
  case text_eq =>
    rw [Script.text, lines_scriptOf, Passage.replay_edits (Machine.passages_of_run hrun) ?_ hmade]
    rw [hindices]
    exact List.pairwise_lt_range
  case increasing => exact hordered.increasing
  case sources => exact fun e he ↦ Machine.getElem?_of_mem_edits hrun he
  case origins_length => exact length_origins_scriptOf hlayout hout hpassages hrun
  case origins_numbered => rw [origins_scriptOf hmade, hindices]
  case kept =>
    intro k j hk
    refine (kept_scriptOf hmade hrun hk).imp_right ?_
    rintro ⟨e, he, hkind | hkind, rfl⟩
    · have hmem : e ∈ (passages.filterMap Passage.edit?).filter (·.kind = .entryPoint) :=
        List.mem_filter.mpr ⟨he, by simpa using hkind⟩
      rw [hordered.filter_entryPoint, List.mem_singleton] at hmem
      exact .inl (hmem ▸ hfront)
    · exact .inr ⟨e, he, hkind, rfl⟩
  case entry =>
    have hcollector := (collectorLine_scriptOf hlayout hpassages).trans hfront
    refine ⟨_, hordered.filter_entryPoint, hfront, ?_, hcollector, ?_⟩
    · rw [hlayout.entered.texts_eq]
      exact s.dialect.instrumentEntry_ne_nil _
    · rw [hcollector, ← hfront]
      exact entry_prefix_scriptOf hpassages
  case closings => rw [List.countP_eq_length_filter, hordered.filter_blockEnd, hordered.closings_length]
  case calls_inside => exact hfront ▸ fun e he hkind ↦ hordered.call_between he hkind
  case calls_counted => exact appendedCalls_scriptOf

theorem exists_ok_of_toOption {ε α β : Type} {result : Except ε α} {f : α → β} {b : β}
    (h : result.toOption.map f = some b) : ∃ a, result = .ok a ∧ f a = b := by
  cases result with
  | error fault => cases h
  | ok a => exact ⟨a, rfl, Option.some.inj h⟩

def twice : Snippet where
  id := "twice"
  dialect := .javaScript
  lines := ["/* twice(x)".toList, "*/".toList, "function main() \x7b".toList, "  console.log(twice(1));".toList, [],
    "\x7d".toList]

theorem exists_transform_twice : ∃ script, twice.transform = .ok script := by
  have hdialect : twice.transform.toOption.map (·.dialect) = some .javaScript := by decide +kernel
  obtain ⟨script, h, -⟩ := exists_ok_of_toOption hdialect
  exact ⟨script, h⟩

theorem transform_recorded_twice : ∃ script block, twice.transform = .ok script ∧ twice.entryBlock = .ok block ∧
    Recorded twice block twice.transformation.edits script := by
  obtain ⟨script, h⟩ := exists_transform_twice
  obtain ⟨block, hblock, hrecorded⟩ := transform_recorded h
  exact ⟨script, block, h, hblock, hrecorded⟩

end Snippet
end AnswerKey
