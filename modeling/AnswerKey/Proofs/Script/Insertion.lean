import AnswerKey.Proofs.Script.Displacement
import AnswerKey.Proofs.Script.Inert

namespace AnswerKey

open Text Code

theorem insertIdx_length {α : Type} (front back : List α) (a : α) :
    (front ++ back).insertIdx front.length a = front ++ a :: back := by
  induction front with
  | nil => rfl
  | cons b front ih => rw [List.cons_append, List.length_cons, List.insertIdx_succ_cons, ih, List.cons_append]

theorem cut_before_or_after {α : Type} {front back head tail : List α} {a : α}
    (h : front ++ back = head ++ a :: tail) :
    (∃ mid, head = front ++ mid ∧ back = mid ++ a :: tail) ∨ ∃ mid, front = head ++ a :: mid ∧ tail = mid ++ back := by
  rcases List.append_eq_append_iff.mp h with ⟨mid, rfl, rfl⟩ | ⟨mid, rfl, hmid⟩
  · exact .inl ⟨mid, rfl, rfl⟩
  · cases mid with
    | nil => exact .inl ⟨[], by simp, hmid.symm⟩
    | cons b mid =>
      obtain ⟨rfl, rfl⟩ := List.cons.inj hmid
      exact .inr ⟨mid, rfl, rfl⟩

/-- The number that line `i` has once there is a new line in front of line `p`. -/
def renumber (p i : Nat) : Nat := if p ≤ i then i + 1 else i

section

variable {p i : Nat}

theorem renumber_of_le (h : p ≤ i) : renumber p i = i + 1 := if_pos h

theorem renumber_of_lt (h : i < p) : renumber p i = i := if_neg (Nat.not_le.mpr h)

theorem renumber_injective (p : Nat) : (renumber p).Injective := by
  intro i j h
  simp only [renumber] at h
  split at h <;> split at h <;> omega

theorem renumber_ne (p i : Nat) : renumber p i ≠ p := by
  unfold renumber
  split <;> omega

theorem renumber_succ (p i : Nat) : renumber (p + 1) (i + 1) = renumber p i + 1 := by
  unfold renumber
  split <;> split <;> omega

end

namespace Displacement

/-- Lines keep their text and make room for a line in front of line `p`. -/
def renumbering (p : Nat) : Displacement := ⟨renumber p, renumber_injective p, [], rfl⟩

variable {p i n : Nat}

theorem moves_before (h : i + n ≤ p) : (renumbering p).Moves i i n :=
  fun k hk ↦ renumber_of_lt (by omega)

theorem moves_after (h : p ≤ i) : (renumbering p).Moves i (i + 1) n := by
  intro k _
  have hnumber : renumber p (i + k) = i + k + 1 := renumber_of_le (by omega)
  rw [Nat.add_right_comm]
  exact hnumber

theorem map_line_renumbering (p : Nat) (lines : List Line) : lines.map (renumbering p).line = lines :=
  List.map_id lines

section

variable {d : Dialect} {g : Grammar} {t : Tracker} {m : Machine} {lines : List Line} {j : Nat}

theorem closingIndex?_renumbered (hg : g = d.grammar) (width : Nat)
    (hmoves : (renumbering p).Moves i j lines.length) :
    closingIndex? g width t j lines = (closingIndex? g width t i lines).map (Option.map (renumber p)) := by
  have hmoved := closingIndex?_displaced (t := t) hg width lines hmoves
  have hwidth : columns (renumbering p).blanks + width = width := Nat.zero_add width
  rwa [map_line_renumbering, hwidth] at hmoved

theorem outputsOf_renumbered (hg : g = d.grammar) (id : String) (hmoves : (renumbering p).Moves i j lines.length) :
    outputsOf g id t j lines =
      ((outputsOf g id t i lines).map (List.map (renumbering p).output)).mapError (Fault.mapLine (renumber p)) := by
  have hmoved := outputsOf_displaced (t := t) hg id lines hmoves
  rwa [map_line_renumbering] at hmoved

theorem run_renumbered (hg : m.grammar = d.grammar) (lines : List Line)
    (hmoves : (renumbering p).Moves i j lines.length) :
    ((renumbering p).machine m).run j lines = ((m.run i lines).1.map (renumbering p).passage,
      ((m.run i lines).2.map (renumbering p).machine).mapError (renumbering p).stop) := by
  have hmoved := Machine.run_displaced hg lines hmoves
  rwa [map_line_renumbering] at hmoved

end

end Displacement

open Displacement

section

variable {d : Dialect} {g : Grammar} {marker : Marker} {c : Line} {t : Tracker} {i : Nat}

theorem lastIndex?_inserted (hc : marker.accepts c = false) (front back : List Line) :
    lastIndex? marker (front ++ c :: back) = (lastIndex? marker (front ++ back)).map (renumber front.length) := by
  induction front with
  | nil =>
    simp only [List.nil_append, lastIndex?, hc]
    cases lastIndex? marker back <;> rfl
  | cons line front ih =>
    simp only [List.cons_append, List.length_cons, lastIndex?, ih]
    cases lastIndex? marker (front ++ back) with
    | some i => exact congrArg some (renumber_succ _ _).symm
    | none =>
      simp only [Option.map_none]
      split <;> rfl

theorem closingIndex?_inserted (hg : g = d.grammar) (hc : d.grammar.comments.Inert c) (n : Nat)
    (front back : List Line) :
    closingIndex? g n t i (front ++ c :: back) =
      (closingIndex? g n t i (front ++ back)).map (Option.map (renumber (i + front.length))) := by
  subst hg
  induction front generalizing t i with
  | nil =>
    obtain ⟨commentary, hfeed, hskip⟩ := d.feed?_of_inert hc t
    have hopen : (!commentary && d.grammar.closesBlock c n) = false := by
      by_contra h
      simp only [Bool.not_eq_false, Bool.and_eq_true, Bool.not_eq_true'] at h
      simp [h.1, d.isBlankLine_of_closesBlock h.2] at hskip
    have hmoved := closingIndex?_renumbered (t := t) (rfl : d.grammar = d.grammar) n
      (moves_after (n := back.length) (le_refl i))
    simp only [List.nil_append, closingIndex?, hfeed, hopen, hmoved]
    rfl
  | cons line front ih =>
    have hfirst : renumber (i + (front.length + 1)) i = i := renumber_of_lt (by omega)
    simp only [List.cons_append, List.length_cons, closingIndex?]
    cases t.feed? d.grammar.comments line with
    | none => rfl
    | some r =>
      dsimp only
      split
      · rw [Option.map_some, Option.map_some, hfirst]
      · rw [ih, Nat.add_right_comm, Nat.add_assoc]

theorem outputsOf_inserted (hg : g = d.grammar) (hc : d.grammar.comments.Inert c) (id : String)
    (front back : List Line) :
    outputsOf g id t i (front ++ c :: back) =
      ((outputsOf g id t i (front ++ back)).map (List.map (renumbering (i + front.length)).output)).mapError
        (Fault.mapLine (renumber (i + front.length))) := by
  subst hg
  induction front generalizing t i with
  | nil =>
    obtain ⟨commentary, hfeed, hskip⟩ := d.feed?_of_inert hc t
    have hmoved := outputsOf_renumbered (t := t) (rfl : d.grammar = d.grammar) id
      (moves_after (n := back.length) (le_refl i))
    cases commentary with
    | true =>
      simp only [List.nil_append, outputsOf, hfeed, hmoved]
      rfl
    | false =>
      simp only [List.nil_append, outputsOf, hfeed, d.outputCall?_of_isBlankLine hskip, hmoved]
      rfl
  | cons line front ih =>
    have hfirst : renumber (i + (front.length + 1)) i = i := renumber_of_lt (by omega)
    have hrest (v : Tracker) := ih (t := v) (i := i + 1)
    rw [Nat.add_right_comm, Nat.add_assoc] at hrest
    simp only [List.cons_append, List.length_cons, outputsOf]
    cases t.feed? d.grammar.comments line with
    | none => rfl
    | some r =>
      obtain ⟨_ | _, v⟩ := r
      · cases d.grammar.outputCall? line with
        | none => exact hrest v
        | some call =>
          cases hargs : call.argument? line with
          | none =>
            simp only [hargs, Except.map, Except.mapError, Fault.mapLine, Defect.mapLine, hfirst]
          | some args =>
            simp only [hargs, hrest v]
            cases outputsOf d.grammar id v (i + 1) (front ++ back) with
            | error fault => rfl
            | ok outputs =>
              simp only [Except.map, Except.mapError, List.map_cons, output, renumbering, hfirst]
      · exact hrest v

end

namespace Machine

variable {d : Dialect} {m : Machine} {c : Line} {front back : List Line} {i : Nat}

/-- A run with an inert line among its lines: the passages before it, its copy, and the passages after it. -/
theorem run_inserted {passages : List Passage} {outcome : Except Stop Machine} (hg : m.grammar = d.grammar)
    (hc : d.grammar.comments.Inert c) (h : m.run 0 (front ++ back) = (passages, outcome)) :
    ∃ passages', ((renumbering front.length).machine m).run 0 (front ++ c :: back) =
        (passages', (outcome.map (renumbering front.length).machine).mapError (renumbering front.length).stop) ∧
      ∀ u, outcome = .ok u → ∃ before after, passages = before ++ after ∧ before.length = front.length ∧
        passages' = before.map (renumbering front.length).passage ++
          ⟨front.length, c, .copied c front.length⟩ :: after.map (renumbering front.length).passage := by
  have hbefore := run_renumbered hg front (moves_before (Nat.zero_add _).le)
  rcases hfront : m.run 0 front with ⟨before, stop | u⟩
  · rw [hfront] at hbefore
    rw [run_append, hfront] at h
    cases h
    refine ⟨_, by rw [run_append, hbefore]; rfl, fun u hu ↦ nomatch hu⟩
  · rw [hfront] at hbefore
    obtain ⟨hgrammar, -, -⟩ := frame_of_run hfront
    have hlength : before.length = front.length := by
      have := congrArg List.length (passages_of_run hfront)
      simpa using this
    have hafter := run_renumbered (hgrammar.trans hg) back (moves_after (le_refl front.length))
    have hcopied := step?_of_inert (m := (renumbering front.length).machine u) (hgrammar.trans hg) hc
      (renumber_ne front.length u.entryLine).symm
    rw [run_append_of_ok hfront, Nat.zero_add] at h
    obtain ⟨rfl, rfl⟩ := Prod.mk.inj h
    rw [run_append_of_ok hbefore, Nat.zero_add, run_cons_of_step hcopied hafter]
    exact ⟨_, rfl, fun v _ ↦ ⟨before, _, rfl, hlength, rfl⟩⟩

end Machine

def Script.firstLineOf (script : Script) : Nat → Nat
  | 0 => 0
  | p + 1 => script.origins.idxOf (some p) + 1

def Emitted.renumbered (p : Nat) (e : Emitted) : Emitted := { e with origin := e.origin.map (renumber p) }

/-- The script with a line `p` that is copied, and the later lines renumbered. -/
def Script.inserted (p : Nat) (c : Line) (script : Script) : Script :=
  { script with
    emitted := (script.emitted.map (Emitted.renumbered p)).insertIdx (script.firstLineOf p) ⟨c, some p⟩
    collectorLine := renumber p script.collectorLine }

namespace Block

def renumbered (p : Nat) (block : Block) : Block :=
  { block with start := renumber p block.start, stop := renumber p block.stop }

end Block

namespace Snippet

def inserted (s : Snippet) (p : Nat) (c : Line) : Snippet := { s with lines := s.lines.insertIdx p c }

variable {s : Snippet} {p start : Nat} {c : Line} {front back : List Line}

@[simp] theorem id_inserted : (s.inserted p c).id = s.id := rfl

@[simp] theorem grammar_inserted : (s.inserted p c).grammar = s.grammar := rfl

theorem exists_inserted (hp : p ≤ s.lines.length) (c : Line) : ∃ front back, s.lines = front ++ back ∧
    p = front.length ∧ (s.inserted p c).lines = front ++ c :: back := by
  have hlength : p = (s.lines.take p).length := (List.length_take_of_le hp).symm
  refine ⟨s.lines.take p, s.lines.drop p, (List.take_append_drop p s.lines).symm, hlength, ?_⟩
  have := insertIdx_length (s.lines.take p) (s.lines.drop p) c
  rwa [List.take_append_drop, ← hlength] at this

section

variable (hc : s.grammar.comments.Inert c) (hlines : s.lines = front ++ back)
  (hinserted : (s.inserted front.length c).lines = front ++ c :: back)

include hc hlines hinserted

theorem entryLine_inserted : (s.inserted front.length c).entryLine =
    (s.entryLine.map (renumber front.length)).mapError (Fault.mapLine (renumber front.length)) := by
  have hlast := lastIndex?_inserted (s.dialect.not_entryPoint_of_inert hc) front back
  simp only [entryLine, id_inserted, grammar_inserted, hinserted, hlines]
  rw [grammar, hlast]
  cases lastIndex? s.dialect.grammar.entryPoint (front ++ back) <;> rfl

theorem closing?_inserted (hentry : s.entryLine = .ok start) :
    (s.inserted front.length c).closing? (renumber front.length start) =
      (s.closing? start).map (Option.map (renumber front.length)) := by
  obtain ⟨head, line, tail, hsplit, rfl⟩ := split_of_entryLine hentry
  rw [closing?_eq hsplit]
  rcases cut_before_or_after (hlines.symm.trans hsplit) with ⟨mid, rfl, rfl⟩ | ⟨mid, rfl, rfl⟩
  · have hsplit' : (s.inserted front.length c).lines = (front ++ c :: mid) ++ line :: tail := by simp [hinserted]
    have hstart : renumber front.length (front ++ mid).length = (front ++ c :: mid).length := by
      rw [renumber_of_le (by simp)]
      simp [Nat.add_assoc]
    have hlength : (front ++ c :: mid).length = (front ++ mid).length + 1 := by simp [Nat.add_assoc]
    have hplace : front.length ≤ (front ++ mid).length + 1 := by
      rw [List.length_append]
      omega
    rw [hstart, closing?_eq hsplit', hlength]
    exact closingIndex?_renumbered rfl (indentWidth line) (moves_after hplace)
  · have hsplit' : (s.inserted (head ++ line :: mid).length c).lines = head ++ line :: (mid ++ c :: back) := by
      rw [hinserted, List.append_assoc, List.cons_append]
    have hstart : renumber (head ++ line :: mid).length head.length = head.length := renumber_of_lt (by simp)
    have hmoved := closingIndex?_inserted (g := s.grammar) (t := {}) (i := head.length + 1) rfl hc
      (indentWidth line) mid back
    have hlength : (head ++ line :: mid).length = head.length + 1 + mid.length := by simp; omega
    rw [hstart, closing?_eq hsplit', hlength]
    exact hmoved

theorem entryBlock_inserted : (s.inserted front.length c).entryBlock =
    (s.entryBlock.map (Block.renumbered front.length)).mapError (Fault.mapLine (renumber front.length)) := by
  have hentry' := entryLine_inserted hc hlines hinserted
  cases hentry : s.entryLine with
  | error fault =>
    rw [hentry] at hentry'
    simp only [entryBlock, hentry', hentry]
    rfl
  | ok start =>
    rw [hentry] at hentry'
    have hlength : (s.inserted front.length c).lines.length = renumber front.length s.lines.length := by
      rw [renumber_of_le (by simp [hlines]), hinserted, hlines]
      simp [Nat.add_assoc]
    rw [entryBlock_of_entryLine hentry', entryBlock_of_entryLine hentry,
      closing?_inserted hc hlines hinserted hentry, hlength]
    cases s.closing? start with
    | none => rfl
    | some stop =>
      cases stop with
      | some stop => rfl
      | none =>
        cases hruns : s.grammar.runsToEnd <;> simp only [grammar_inserted, id_inserted, hruns, Option.map] <;> rfl

theorem outputsIn_inserted {stop : Nat} (hstop : start < stop) :
    (s.inserted front.length c).outputsIn (renumber front.length start + 1) (renumber front.length stop) =
      ((s.outputsIn (start + 1) stop).map (List.map (renumbering front.length).output)).mapError
        (Fault.mapLine (renumber front.length)) := by
  simp only [outputsIn, id_inserted, grammar_inserted, hinserted, hlines]
  rcases Nat.lt_or_ge start front.length with hstart | hstart
  · have hdrop (lines : List Line) : (front ++ lines).drop (start + 1) = front.drop (start + 1) ++ lines :=
      List.drop_append_of_le_length hstart
    rw [renumber_of_lt hstart, hdrop, hdrop]
    rcases Nat.lt_or_ge stop front.length with hend | hend
    · -- the new line stands after the block
      have htake (lines : List Line) : (front.drop (start + 1) ++ lines).take (stop - (start + 1)) =
          (front.drop (start + 1)).take (stop - (start + 1)) :=
        List.take_append_of_le_length (by rw [List.length_drop]; omega)
      have hplace : start + 1 + ((front.drop (start + 1)).take (stop - (start + 1))).length ≤ front.length := by
        rw [List.length_take, List.length_drop]
        omega
      rw [renumber_of_lt hend, htake, htake]
      exact outputsOf_renumbered rfl s.id (moves_before hplace)
    · -- the new line stands in the block
      have hfrom : stop - (start + 1) = (front.drop (start + 1)).length + (stop - front.length) := by
        rw [List.length_drop]
        omega
      have hto : stop + 1 - (start + 1) = (front.drop (start + 1)).length + (stop - front.length + 1) := by
        rw [List.length_drop]
        omega
      have hplace : start + 1 + (front.drop (start + 1)).length = front.length := by
        rw [List.length_drop]
        omega
      have hmoved := outputsOf_inserted (g := s.grammar) (t := {}) (i := start + 1) rfl hc s.id
        (front.drop (start + 1)) (back.take (stop - front.length))
      rw [hplace] at hmoved
      rw [renumber_of_le hend, hfrom, hto, List.take_length_add_append, List.take_length_add_append,
        List.take_succ_cons]
      exact hmoved
  · -- the new line stands before the block
    obtain ⟨k, rfl⟩ := Nat.exists_eq_add_of_le hstart
    have hplace : front.length ≤ front.length + k + 1 := by omega
    have hcount : stop + 1 - (front.length + k + 1 + 1) = stop - (front.length + k + 1) := by omega
    have hdrop : (front ++ back).drop (front.length + k + 1) = back.drop (k + 1) := by
      rw [Nat.add_assoc, List.drop_length_add_append]
    have hdrop' : (front ++ c :: back).drop (front.length + k + 1 + 1) = back.drop (k + 1) := by
      rw [Nat.add_assoc, Nat.add_assoc, List.drop_length_add_append, ← Nat.add_assoc, List.drop_succ_cons]
    rw [renumber_of_le hstart, renumber_of_le (by omega), hcount, hdrop, hdrop']
    exact outputsOf_renumbered rfl s.id (moves_after hplace)

theorem outputs_inserted : (s.inserted front.length c).outputs =
    (s.outputs.map (List.map (renumbering front.length).output)).mapError (Fault.mapLine (renumber front.length)) := by
  have hblock' := entryBlock_inserted hc hlines hinserted
  cases hblock : s.entryBlock with
  | error fault =>
    rw [hblock] at hblock'
    simp only [outputs, hblock', hblock]
    rfl
  | ok block =>
    rw [hblock] at hblock'
    obtain ⟨front, entry, body, rest, hparts⟩ := Block.exists_parts hblock
    have hstop : block.start < block.stop := by
      rw [hparts.start_eq, hparts.stop_eq]
      omega
    simp only [outputs, hblock', hblock]
    exact outputsIn_inserted hc hlines hinserted hstop

end

section

variable {passages : List Passage} {m : Machine}

theorem layout_of_run (hentry : s.entryLine = .ok start)
    (hrun : Machine.run { grammar := s.grammar, entryLine := start } 0 s.lines = (passages, .ok m)) :
    ∃ head entry body ending, head.length = start ∧ passages = copies 0 head ++ entry :: (body ++ ending) ∧
      Layout s.grammar head entry body ending m.position := by
  obtain ⟨head, line, tail, hlines, hhead⟩ := split_of_entryLine hentry
  obtain ⟨entry, body, ending, hpassages, hlayout⟩ := Machine.run_layout rfl hhead.symm (hlines ▸ hrun)
  exact ⟨head, entry, body, ending, hhead, hpassages, hlayout⟩

theorem collectorLine_of_run (hentry : s.entryLine = .ok start)
    (hrun : Machine.run { grammar := s.grammar, entryLine := start } 0 s.lines = (passages, .ok m)) :
    (s.scriptOf passages).collectorLine = start := by
  obtain ⟨head, entry, body, ending, hhead, hpassages, hlayout⟩ := layout_of_run hentry hrun
  exact (collectorLine_scriptOf hlayout hpassages).trans hhead

theorem exists_origins {before : List Passage} (hmade : ∀ q ∈ before, q.Made s.dialect)
    (hindices : before.map (·.index) = List.range (p + 1)) :
    ∃ earlier, some p ∉ earlier ∧
      (before.flatMap (·.step.emitted)).map (·.origin) = earlier ++ [some p] := by
  rcases before.eq_nil_or_concat with rfl | ⟨earlier, last, rfl⟩
  · simp [List.range_succ] at hindices
  rw [List.concat_eq_append, List.map_append, List.range_succ] at hindices
  obtain ⟨hearlier, hindex⟩ := List.append_inj' hindices rfl
  have hlast : last.index = p := List.singleton_inj.mp hindex
  obtain ⟨k, horigins⟩ := (hmade last (by simp)).exists_origins
  refine ⟨(earlier.flatMap (·.step.emitted)).map (·.origin) ++ List.replicate k none, ?_, by simp [horigins, hlast]⟩
  simp only [List.mem_append, List.mem_map, List.mem_flatMap, List.mem_replicate, reduceCtorEq, and_false, or_false]
  rintro ⟨e, ⟨q, hq, he⟩, hp⟩
  have hmem := List.mem_filterMap.mpr ⟨e, he, hp⟩
  rw [(hmade q (by simp [hq])).origins, List.mem_singleton] at hmem
  have hrange : q.index ∈ List.range p := hearlier ▸ List.mem_map_of_mem hq
  simp [hmem] at hrange

theorem firstLineOf_scriptOf {before : List Passage} (hmade : ∀ q ∈ before, q.Made s.dialect)
    (hindices : before.map (·.index) = List.range p) (after : List Passage) :
    (s.scriptOf (before ++ after)).firstLineOf p = (before.flatMap (·.step.emitted)).length := by
  cases p with
  | zero =>
    obtain rfl : before = [] := by simpa using hindices
    rfl
  | succ p =>
    obtain ⟨earlier, hfresh, horigins⟩ := exists_origins hmade hindices
    have hlength := congrArg List.length horigins
    rw [List.length_map, List.length_append, List.length_singleton] at hlength
    rw [Script.firstLineOf, hlength, Script.origins, scriptOf, List.flatMap_append, List.append_assoc, List.map_append,
      horigins, List.append_assoc, List.idxOf_append_of_notMem hfresh, List.singleton_append, List.idxOf_cons_self]

theorem emitted_inserted {before after : List Passage} (hmade : ∀ q ∈ before, q.Made s.dialect)
    (hindices : before.map (·.index) = List.range p) (c : Line) :
    ((s.scriptOf (before ++ after)).inserted p c).emitted =
      (before.flatMap (·.step.emitted)).map (Emitted.renumbered p) ++
        ⟨c, some p⟩ :: (after.flatMap (·.step.emitted) ++ [⟨[], none⟩] : List Emitted).map (Emitted.renumbered p) := by
  have hplace := firstLineOf_scriptOf hmade hindices after
  rw [← List.length_map (Emitted.renumbered p)] at hplace
  rw [Script.inserted, hplace]
  simp only [scriptOf, List.flatMap_append, List.append_assoc]
  rw [List.map_append]
  exact insertIdx_length _ _ _

theorem scriptOf_inserted {before after passages' : List Passage} (hmade : ∀ q ∈ before, q.Made s.dialect)
    (hindices : before.map (·.index) = List.range p)
    (hpassages : passages' =
      before.map (renumbering p).passage ++ ⟨p, c, .copied c p⟩ :: after.map (renumbering p).passage)
    (hcollector : linesBeforeEntry passages' = renumber p (linesBeforeEntry (before ++ after))) :
    (s.inserted p c).scriptOf passages' = (s.scriptOf (before ++ after)).inserted p c := by
  have hemitted : ((s.inserted p c).scriptOf passages').emitted =
      ((s.scriptOf (before ++ after)).inserted p c).emitted := by
    rw [emitted_inserted hmade hindices, hpassages]
    simp only [scriptOf, List.flatMap_append, List.flatMap_cons, emitted_displaced, List.append_assoc, List.map_append]
    rfl
  have hcalls : ((s.inserted p c).scriptOf passages').appendedCalls =
      (s.scriptOf (before ++ after)).appendedCalls := by
    simp only [scriptOf, hpassages, List.countP_append, List.countP_cons, appended_displaced]
    rfl
  exact (Script.mk.injEq ..).mpr ⟨rfl, rfl, hemitted, hcollector, hcalls⟩

theorem before_of_run (hentry : s.entryLine = .ok start) {before after : List Passage}
    (hrun : Machine.run { grammar := s.grammar, entryLine := start } 0 s.lines = (before ++ after, .ok m)) :
    (∀ q ∈ before, q.Made s.dialect) ∧ before.map (·.index) = List.range before.length := by
  obtain ⟨head, entry, body, ending, -, hpassages, hlayout⟩ := layout_of_run hentry hrun
  have hindices := Machine.indices_of_run hrun
  have hlength : before.length ≤ s.lines.length := by
    have := congrArg List.length hindices
    simp only [List.length_map, List.length_append, List.length_range] at this
    omega
  refine ⟨fun q hq ↦ hlayout.made (d := s.dialect) q (hpassages ▸ List.mem_append_left _ hq), ?_⟩
  have hfront := congrArg (List.take before.length) hindices
  rwa [List.map_append, List.take_left' (List.length_map _), List.take_range, Nat.min_eq_left hlength] at hfront

theorem transform_inserted (hc : s.grammar.comments.Inert c) (hlines : s.lines = front ++ back)
    (hinserted : (s.inserted front.length c).lines = front ++ c :: back) :
    (s.inserted front.length c).transform =
      (s.transform.map (Script.inserted front.length c)).mapError (Fault.mapLine (renumber front.length)) := by
  have hblock' := entryBlock_inserted hc hlines hinserted
  cases hblock : s.entryBlock with
  | error fault =>
    rw [hblock] at hblock'
    simp only [transform, transformation, hblock', hblock]
    rfl
  | ok block =>
    rw [hblock] at hblock'
    have hentry := entryLine_of_entryBlock hblock
    have hentry' := entryLine_of_entryBlock hblock'
    rcases hrun : Machine.run { grammar := s.grammar, entryLine := block.start } 0 s.lines with ⟨passages, outcome⟩
    obtain ⟨passages', hrun', hparts⟩ := Machine.run_inserted (m := { grammar := s.grammar, entryLine := block.start })
      rfl hc (hlines ▸ hrun)
    rw [← hinserted] at hrun'
    rw [transform_eq_conclude hblock', transform_eq_conclude hblock, hrun]
    refine (congrArg (s.inserted front.length c).conclude hrun').trans (conclude_displaced s _ rfl fun m hm ↦ ?_)
    subst hm
    obtain ⟨before, after, rfl, hlength, hpassages⟩ := hparts m rfl
    obtain ⟨hmade, hindices⟩ := before_of_run hentry hrun
    have hcollector := collectorLine_of_run hentry hrun
    have hcollector' := collectorLine_of_run hentry' hrun'
    exact scriptOf_inserted hmade (hlength ▸ hindices) hpassages
      (hcollector'.trans (congrArg (renumber front.length) hcollector.symm))

theorem exists_parts_inserted {script : Script} (hp : p ≤ s.lines.length) (h : s.transform = .ok script) (c : Line) :
    ∃ before after : List Emitted, script.emitted = before ++ after ∧ before.filterMap (·.origin) = List.range p ∧
      (∀ e ∈ before.getLast?, e.origin ≠ none) ∧
      (script.inserted p c).emitted = before ++ ⟨c, some p⟩ :: after.map (Emitted.renumbered p) := by
  obtain ⟨block, passages, m, hblock, hrun, -, rfl, -⟩ := transform_ok h
  have hlength : passages.length = s.lines.length := by
    rw [← List.length_map (·.index), Machine.indices_of_run hrun, List.length_range]
  obtain ⟨first, rest, rfl, rfl⟩ : ∃ first rest, passages = first ++ rest ∧ p = first.length :=
    ⟨passages.take p, passages.drop p, (List.take_append_drop p passages).symm,
      (List.length_take_of_le (hlength ▸ hp)).symm⟩
  obtain ⟨hmade, hindices⟩ := before_of_run (entryLine_of_entryBlock hblock) hrun
  have horigins : (first.flatMap (·.step.emitted)).filterMap (·.origin) = List.range first.length := by
    rw [List.filterMap_flatMap, ← hindices, List.map_eq_flatMap]
    exact List.flatMap_congr fun q hq ↦ (hmade q hq).origins
  have hkept : (first.flatMap (·.step.emitted)).map (Emitted.renumbered first.length) =
      first.flatMap (·.step.emitted) := by
    refine (List.map_congr_left fun e he ↦ ?_).trans (List.map_id _)
    obtain ⟨text, _ | i⟩ := e
    · rfl
    · have hi : i ∈ List.range first.length := horigins ▸ List.mem_filterMap.mpr ⟨_, he, rfl⟩
      simp only [Emitted.renumbered, Option.map_some, renumber_of_lt (List.mem_range.mp hi), id_eq]
  refine ⟨first.flatMap (·.step.emitted), rest.flatMap (·.step.emitted) ++ [⟨[], none⟩], ?_, horigins, ?_, ?_⟩
  · simp only [scriptOf, List.flatMap_append, List.append_assoc]
  · intro e he
    obtain ⟨p, hp⟩ : ∃ p, first.length = p + 1 := by
      cases first with
      | nil => cases he
      | cons q first => exact ⟨first.length, rfl⟩
    obtain ⟨earlier, -, hlast⟩ := exists_origins hmade (hp ▸ hindices)
    have hlast' := congrArg List.getLast? hlast
    rw [List.getLast?_map, Option.mem_def.mp he, List.getLast?_concat, Option.map_some, Option.some.injEq] at hlast'
    simp [hlast']
  · rw [emitted_inserted hmade hindices, hkept]

end

/-- A blank line or a line comment can stand anywhere in a snippet: its calls are the same with the later lines
renumbered, the new line is a line of the script in its place, and the same faults are found. -/
theorem insertion_inert (hp : p ≤ s.lines.length) (hc : s.grammar.comments.Inert c) :
    (s.inserted p c).outputs =
        (s.outputs.map (List.map fun o ↦ { o with line := renumber p o.line })).mapError (Fault.mapLine (renumber p)) ∧
      (s.inserted p c).transform = (s.transform.map (Script.inserted p c)).mapError (Fault.mapLine (renumber p)) ∧
      ∀ script, s.transform = .ok script →
        (script.inserted p c).appendedCalls = script.appendedCalls ∧
        ∃ before after : List Emitted, script.emitted = before ++ after ∧
          before.filterMap (·.origin) = List.range p ∧ (∀ e ∈ before.getLast?, e.origin ≠ none) ∧
          (script.inserted p c).emitted = before ++ ⟨c, some p⟩ :: after.map (Emitted.renumbered p) := by
  obtain ⟨front, back, hlines, rfl, hinserted⟩ := exists_inserted hp c
  exact ⟨outputs_inserted hc hlines hinserted, transform_inserted hc hlines hinserted,
    fun script h ↦ ⟨rfl, exists_parts_inserted hp h c⟩⟩

theorem insertion_inert_twice : 1 ≤ twice.lines.length ∧ twice.grammar.comments.Inert "  // main".toList ∧
    ∃ script, twice.transform = .ok script ∧
      (twice.inserted 1 "  // main".toList).transform = .ok (script.inserted 1 "  // main".toList) := by
  have hp : 1 ≤ twice.lines.length := by decide
  have hc : twice.grammar.comments.Inert "  // main".toList := by
    refine .inr ⟨by decide, ?_⟩
    rintro _ _ ⟨⟩
    decide
  obtain ⟨script, h⟩ := exists_transform_twice
  obtain ⟨-, htransform, -⟩ := insertion_inert hp hc
  exact ⟨hp, hc, script, h, by rw [htransform, h]; rfl⟩

end Snippet
end AnswerKey
