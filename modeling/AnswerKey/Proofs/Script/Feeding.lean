import AnswerKey.Proofs.Code.Balance
import AnswerKey.Proofs.Script.Passages
import AnswerKey.Proofs.Script.Remainder

namespace AnswerKey

open Text Code

/-- The line begins with an output call, and nowhere on it do the parentheses of the call balance. -/
def OpensCall (d : Dialect) (line : Line) : Prop :=
  ∃ opening ∈ d.grammar.outputCalls, ∃ rest, line = indentation line ++ (opening ++ rest) ∧
    ∀ inside closing remainder, rest = inside ++ closing :: remainder → ¬ FirstBalance inside closing

namespace Feeding

def commentary (f : Feeding) : Bool := (f.before.tracker.feed? f.before.grammar.comments f.line).any Prod.fst

def isCode (f : Feeding) : Bool := !(f.commentary || isBlankLine f.line)

def edit? (f : Feeding) : Option EditKind := f.outcome.toOption.bind (·.edit)

structure Outside (entryLine : Nat) (f : Feeding) : Prop where
  elsewhere : f.index ≠ entryLine
  before : f.before.position = .outside
  after : f.after.position = .outside

/-- What any single line may do to a machine. -/
structure Obeys (d : Dialect) (f : Feeding) : Prop where
  /-- Of the lines that a line becomes the last one stands for it, and the others are new. -/
  origins : ∀ step, f.outcome = .ok step →
    ∃ k, step.emitted.map (·.origin) = List.replicate k none ++ [some f.index]
  inside : f.edit? = some .outputCall ∨ f.edit? = some .blockEnd → f.before.position ≠ .outside
  /-- A return statement comes just before the closing line. -/
  closing : f.edit? = some .blockEnd → ∃ e n b, f.before.position = .inside e n b ∧ f.after.position = .outside ∧
    f.outcome = .ok ⟨[⟨b.getD (indentation f.line ++ defaultBodyIndent) ++ "return answers;".toList, none⟩,
      ⟨f.line, some f.index⟩], some .blockEnd⟩
  failing : ∀ j, f.outcome = .error j → j = f.index ∧ f.before.position ≠ .outside ∧ f.isCode = true ∧
    OpensCall d f.line
  /-- The machine after a failure is the one after a line of code with the same indentation, but for the tracker, which
  has read another line. -/
  failed : ∀ j, f.outcome = .error j → ∀ plain t e n b, f.before.position = .inside e n b →
    indentation plain = indentation f.line → isBlankLine plain = false → d.grammar.closesBlock plain n = false →
    d.grammar.outputCall? plain = none →
    f.before.tracker.feed? d.grammar.comments plain = some (false, t) →
      f.before.step? f.index plain = some ({ f.after with tracker := t }, .ok (.copied plain f.index))

end Feeding

/-- The indentation of the first line of code among these, if there is one. -/
def bodyIndent? (feedings : List Feeding) : Option Line := (feedings.find? (·.isCode)).map fun f ↦ indentation f.line

/-- Lines of a block that follow others of it and do not close it. -/
structure Body (d : Dialect) (entryLine entryIndent : Nat) (earlier body : List Feeding) : Prop where
  positions : ∀ seen f later, body = seen ++ f :: later →
    f.before.position = .inside entryLine entryIndent (bodyIndent? (earlier ++ seen)) ∧
      f.after.position = .inside entryLine entryIndent (bodyIndent? (earlier ++ (seen ++ [f])))
  «open» : ∀ f ∈ body, f.index ≠ entryLine ∧ (f.isCode = true → d.grammar.closesBlock f.line entryIndent = false)

/-- What follows the lines of a block, and the position in the end: nothing, or a line that closes the block and lines
outside of it. -/
inductive Departure (d : Dialect) (entryLine entryIndent : Nat) (block : List Feeding) : List Feeding → Position → Prop
  | open : Departure d entryLine entryIndent block [] (.inside entryLine entryIndent (bodyIndent? block))
  | closed {f : Feeding} {back : List Feeding} (hindex : f.index ≠ entryLine)
      (hbefore : f.before.position = .inside entryLine entryIndent (bodyIndent? block))
      (hcode : f.isCode = true) (hcloses : d.grammar.closesBlock f.line entryIndent = true)
      (hafter : f.after.position = .outside) (hback : ∀ g ∈ back, g.Outside entryLine) :
      Departure d entryLine entryIndent block (f :: back) .outside

/-- The course of a feed, and the position in the end: outside the block all the way, or up to the entry line and, once
the block is closed, again. -/
inductive Course (d : Dialect) (entryLine : Nat) : List Feeding → Position → Prop
  | outside {feedings : List Feeding} (h : ∀ f ∈ feedings, f.Outside entryLine) : Course d entryLine feedings .outside
  | entered {front body ending : List Feeding} {entry : Feeding} {position : Position}
      (hfront : ∀ f ∈ front, f.Outside entryLine) (hindex : entry.index = entryLine)
      (hbefore : entry.before.position = .outside)
      (hafter : entry.after.position = .inside entryLine (indentWidth entry.line) none)
      (hbody : Body d entryLine (indentWidth entry.line) [] body)
      (hending : Departure d entryLine (indentWidth entry.line) body ending position) :
      Course d entryLine (front ++ entry :: (body ++ ending)) position

/-- A feed of these lines to a fresh machine, with what it does line by line and over all. -/
structure LawfulFeed (d : Dialect) (entryLine : Nat) (items : List (Nat × Line)) (feedings : List Feeding)
    (last : Machine) : Prop where
  fed : feedings.map (fun f ↦ (f.index, f.line)) = items
  linked : { grammar := d.grammar, entryLine } :: feedings.map (·.after) = feedings.map (·.before) ++ [last]
  obeys : ∀ f ∈ feedings, f.Obeys d
  course : Course d entryLine feedings last.position
  closings : (feedings.filter fun f ↦ f.edit? = some .blockEnd).length ≤ 1

namespace Dialect

/-- Only the dialects that close their blocks with a brace have to return the collector. -/
theorem renderReturn?_eq (d : Dialect) (indent : Line) :
    d.grammar.renderReturn? indent = if d = .python then none else some (indent ++ "return answers;".toList) := by
  cases d <;> rfl

end Dialect

variable {d : Dialect} {m last : Machine} {i e n : Nat} {line : Line} {items : List (Nat × Line)} {f : Feeding}
  {feedings earlier body ending front : List Feeding} {position : Position} {step : Step}

theorem opensCall_of_argument? {call : OutputCall} (hcall : d.grammar.outputCall? line = some call)
    (hargs : call.argument? line = none) : OpensCall d line := by
  obtain ⟨rest, hknown, hline, hargument⟩ := Dialect.exists_opening_eq hcall
  refine ⟨call.opening, hknown, rest, hline, fun inside closing remainder hcut hbalance ↦ ?_⟩
  obtain ⟨rfl, hinside⟩ := firstBalance_iff.mp hbalance
  have henclosed : enclosed? 0 .code rest = some (inside, remainder) := enclosed?_eq_some_iff.mpr ⟨hcut, hinside⟩
  rw [hargument, henclosed] at hargs
  cases hargs

namespace Machine.Reads

variable {commentary : Bool} {u : Machine} {j : Nat}

theorem made (h : Reads m commentary i line (u, .ok step)) (hg : m.grammar = d.grammar) :
    (⟨i, line, step⟩ : Passage).Made d := by
  unfold Passage.Made
  rw [← hg]
  cases h with
  | passed => exact .inl rfl
  | entered => exact .inr (.inl rfl)
  | skipped => exact .inl rfl
  | closed => exact .inr (.inr (.inr ⟨_, rfl⟩))
  | kept => exact .inl rfl
  | appended => exact .inr (.inr (.inl ⟨_, rfl⟩))

theorem edit_of_outside (h : Reads m commentary i line (u, .ok step)) (hpos : m.position = .outside) :
    step.edit = some .entryPoint ∨ step.edit = none := by
  cases h with
  | passed => exact .inr rfl
  | entered => exact .inl rfl
  | skipped hin => cases hpos.symm.trans hin
  | closed hin => cases hpos.symm.trans hin
  | kept hin => cases hpos.symm.trans hin
  | appended hin => cases hpos.symm.trans hin

theorem of_blockEnd (h : Reads m commentary i line (u, .ok step)) (hg : m.grammar = d.grammar)
    (hedit : step.edit = some .blockEnd) : ∃ e n b, m.position = .inside e n b ∧ u.position = .outside ∧
      step = ⟨[⟨b.getD (indentation line ++ defaultBodyIndent) ++ "return answers;".toList, none⟩,
        ⟨line, some i⟩], some .blockEnd⟩ := by
  cases h with
  | passed => cases hedit
  | entered => cases hedit
  | skipped => cases hedit
  | kept => cases hedit
  | appended => cases hedit
  | @closed e n b hpos =>
    refine ⟨e, n, b, hpos, rfl, ?_⟩
    rw [hg, d.renderReturn?_eq] at hedit ⊢
    by_cases hd : d = .python
    · rw [if_pos hd] at hedit
      cases hedit
    · rw [if_neg hd]
      rfl

theorem of_error (h : Reads m commentary i line (u, .error j)) (hg : m.grammar = d.grammar) :
    j = i ∧ (commentary || isBlankLine line) = false ∧ OpensCall d line ∧
      ∃ e n b, m.position = .inside e n b ∧
        u = { m with position := .inside e n (b.or (some (indentation line))) } := by
  cases h with
  | failed hpos hcode hclose hcall hargs =>
    exact ⟨rfl, hcode, opensCall_of_argument? (hg ▸ hcall) hargs, _, _, _, hpos, rfl⟩

theorem of_outside {r : Machine × Except Nat Step} (h : Reads m commentary i line r) (hpos : m.position = .outside) :
    i ≠ m.entryLine ∧ r.1.position = .outside ∨
      i = m.entryLine ∧ r.1.position = .inside m.entryLine (indentWidth line) none := by
  cases h with
  | passed hout hi => exact .inl ⟨hi, hout⟩
  | entered hout hi => exact .inr ⟨hi, hi ▸ rfl⟩
  | skipped hin => cases hpos.symm.trans hin
  | closed hin => cases hpos.symm.trans hin
  | kept hin => cases hpos.symm.trans hin
  | appended hin => cases hpos.symm.trans hin
  | failed hin => cases hpos.symm.trans hin

theorem of_inside {r : Machine × Except Nat Step} {b : Option Line} (h : Reads m commentary i line r)
    (hpos : m.position = .inside e n b) :
    (commentary || isBlankLine line) = true ∧ r.1.position = .inside e n b ∨
      (commentary || isBlankLine line) = false ∧
        (m.grammar.closesBlock line n = false ∧ r.1.position = .inside e n (b.or (some (indentation line))) ∨
          m.grammar.closesBlock line n = true ∧ r.1.position = .outside) := by
  cases h with
  | passed hout => cases hpos.symm.trans hout
  | entered hout => cases hpos.symm.trans hout
  | skipped hin hskip => exact .inl ⟨hskip, hpos⟩
  | closed hin hcode hclose =>
    obtain ⟨rfl, rfl, rfl⟩ := Position.inside.inj (hpos.symm.trans hin)
    exact .inr ⟨hcode, .inr ⟨hclose, rfl⟩⟩
  | kept hin hcode hclose =>
    obtain ⟨rfl, rfl, rfl⟩ := Position.inside.inj (hpos.symm.trans hin)
    exact .inr ⟨hcode, .inl ⟨hclose, rfl⟩⟩
  | appended hin hcode hclose =>
    obtain ⟨rfl, rfl, rfl⟩ := Position.inside.inj (hpos.symm.trans hin)
    exact .inr ⟨hcode, .inl ⟨hclose, rfl⟩⟩
  | failed hin hcode hclose =>
    obtain ⟨rfl, rfl, rfl⟩ := Position.inside.inj (hpos.symm.trans hin)
    exact .inr ⟨hcode, .inl ⟨hclose, rfl⟩⟩

end Machine.Reads

theorem bodyIndent?_concat : bodyIndent? (earlier ++ [f]) =
    (bodyIndent? earlier).or (if f.isCode then some (indentation f.line) else none) := by
  rw [bodyIndent?, bodyIndent?, List.find?_append, Option.map_or]
  cases hcode : f.isCode <;> simp [hcode]

namespace Feeding

def Fed (f : Feeding) : Prop :=
  ∃ t, f.before.tracker.feed? f.before.grammar.comments f.line = some (f.commentary, t) ∧
    Machine.Reads { f.before with tracker := t } f.commentary f.index f.line (f.after, f.outcome)

theorem fed_of_step? {after : Machine} {outcome : Except Nat Step} (h : m.step? i line = some (after, outcome)) :
    Fed ⟨m, i, line, outcome, after⟩ := by
  obtain ⟨commentary, t, hfeed, hact⟩ := Machine.step?_eq_some_iff.mp h
  have hcommentary : (⟨m, i, line, outcome, after⟩ : Feeding).commentary = commentary := by
    rw [Feeding.commentary, hfeed]
    rfl
  rw [Fed, hcommentary]
  exact ⟨t, hfeed, hact ▸ Machine.reads_act _ _ _ _⟩

theorem isCode_iff : f.isCode = true ↔ (f.commentary || isBlankLine f.line) = false := by
  rw [isCode, Bool.not_eq_true']

theorem edit?_eq_some {kind : EditKind} :
    f.edit? = some kind ↔ ∃ step, f.outcome = .ok step ∧ step.edit = some kind := by
  unfold edit?
  cases f.outcome <;> simp [Except.toOption]

namespace Fed

theorem inside (h : f.Fed) (hedit : f.edit? = some .outputCall ∨ f.edit? = some .blockEnd) :
    f.before.position ≠ .outside := by
  obtain ⟨t, -, hreads⟩ := h
  intro hout
  rcases hedit with hedit | hedit
  all_goals
    obtain ⟨step, hok, hkind⟩ := edit?_eq_some.mp hedit
    rw [hok] at hreads
    rcases hreads.edit_of_outside hout with hstep | hstep <;> cases hkind.symm.trans hstep

theorem closing (h : f.Fed) (hg : f.before.grammar = d.grammar) (hedit : f.edit? = some .blockEnd) :
    ∃ e n b, f.before.position = .inside e n b ∧ f.after.position = .outside ∧
      f.outcome = .ok ⟨[⟨b.getD (indentation f.line ++ defaultBodyIndent) ++ "return answers;".toList, none⟩,
        ⟨f.line, some f.index⟩], some .blockEnd⟩ := by
  obtain ⟨t, -, hreads⟩ := h
  obtain ⟨step, hok, hkind⟩ := edit?_eq_some.mp hedit
  rw [hok] at hreads
  obtain ⟨e, n, b, hpos, hafter, hstep⟩ := hreads.of_blockEnd hg hkind
  exact ⟨e, n, b, hpos, hafter, hstep ▸ hok⟩

theorem failing (h : f.Fed) (hg : f.before.grammar = d.grammar) {j : Nat} (hfails : f.outcome = .error j) :
    j = f.index ∧ f.before.position ≠ .outside ∧ f.isCode = true ∧ OpensCall d f.line := by
  obtain ⟨t, -, hreads⟩ := h
  rw [hfails] at hreads
  obtain ⟨hindex, hcode, hopens, e, n, b, hpos, -⟩ := hreads.of_error hg
  exact ⟨hindex, fun hout ↦ Position.noConfusion (hout.symm.trans hpos), isCode_iff.mpr hcode, hopens⟩

theorem failed (h : f.Fed) (hg : f.before.grammar = d.grammar) {j : Nat} (hfails : f.outcome = .error j)
    {plain : Line} {t : Tracker} {b : Option Line} (hpos : f.before.position = .inside e n b)
    (hindent : indentation plain = indentation f.line) (hblank : isBlankLine plain = false)
    (hopen : d.grammar.closesBlock plain n = false) (hcall : d.grammar.outputCall? plain = none)
    (hfeed : f.before.tracker.feed? d.grammar.comments plain = some (false, t)) :
    f.before.step? f.index plain = some ({ f.after with tracker := t }, .ok (.copied plain f.index)) := by
  obtain ⟨v, -, hreads⟩ := h
  rw [hfails] at hreads
  obtain ⟨-, -, -, e', n', b', hin, hafter⟩ := hreads.of_error hg
  obtain ⟨rfl, rfl, rfl⟩ := Position.inside.inj (hpos.symm.trans hin)
  rw [← hg] at hopen hcall hfeed
  have hkept : Machine.Reads { f.before with tracker := t } false f.index plain _ :=
    .kept hpos (by rw [hblank]; rfl) hopen hcall
  rw [hafter, ← hindent]
  exact Machine.step?_eq_some_iff.mpr ⟨false, t, hfeed, Machine.act_of_reads hkept⟩

theorem obeys (h : f.Fed) (hg : f.before.grammar = d.grammar) : f.Obeys d where
  origins step hok := by
    obtain ⟨t, -, hreads⟩ := h
    rw [hok] at hreads
    exact (hreads.made hg).exists_origins
  inside := h.inside
  closing := h.closing hg
  failing _ hfails := h.failing hg hfails
  failed _ hfails _ _ _ _ _ hpos hindent hblank hopen hcall hfeed :=
    h.failed hg hfails hpos hindent hblank hopen hcall hfeed

theorem frame (h : f.Fed) :
    f.after.grammar = f.before.grammar ∧ f.after.entryLine = f.before.entryLine := by
  obtain ⟨t, -, hreads⟩ := h
  exact ⟨hreads.frame.1, hreads.frame.2.1⟩

theorem of_outside (h : f.Fed) (hpos : f.before.position = .outside) :
    f.index ≠ f.before.entryLine ∧ f.after.position = .outside ∨
      f.index = f.before.entryLine ∧ f.after.position = .inside f.before.entryLine (indentWidth f.line) none := by
  obtain ⟨t, -, hreads⟩ := h
  exact hreads.of_outside hpos

theorem of_inside (h : f.Fed) (hg : f.before.grammar = d.grammar)
    (hpos : f.before.position = .inside e n (bodyIndent? earlier)) :
    (f.isCode = true → d.grammar.closesBlock f.line n = false) ∧
        f.after.position = .inside e n (bodyIndent? (earlier ++ [f])) ∨
      f.isCode = true ∧ d.grammar.closesBlock f.line n = true ∧ f.after.position = .outside := by
  obtain ⟨t, -, hreads⟩ := h
  rcases hreads.of_inside hpos with ⟨hskip, hafter⟩ | ⟨hcode, hread⟩
  · have hnone : f.isCode = false := by rw [isCode, hskip]; rfl
    refine .inl ⟨fun hsome ↦ absurd hsome (by simp [hnone]), ?_⟩
    rw [bodyIndent?_concat, hnone, hafter]
    simp
  · rw [← isCode_iff] at hcode
    rcases hread with ⟨hopen, hafter⟩ | ⟨hcloses, hafter⟩
    · refine .inl ⟨fun _ ↦ hg ▸ hopen, ?_⟩
      rw [bodyIndent?_concat, hcode, hafter]
      rfl
    · exact .inr ⟨hcode, hg ▸ hcloses, hafter⟩

end Fed

/-- A line that closes the block with a return statement is the last line inside. -/
theorem Obeys.filter_outside (h : ∀ f ∈ feedings, f.Obeys d)
    (houtside : ∀ f ∈ feedings, f.before.position = .outside ∨ f.after.position ≠ .outside) :
    feedings.filter (fun f ↦ f.edit? = some .blockEnd) = [] := by
  refine List.filter_eq_nil_iff.mpr fun f hf hedit ↦ ?_
  have hedit : f.edit? = some .blockEnd := of_decide_eq_true hedit
  obtain ⟨e, n, b, hbefore, hafter, -⟩ := (h f hf).closing hedit
  rcases houtside f hf with hout | hin
  · cases hout.symm.trans hbefore
  · exact hin hafter

end Feeding

namespace Machine

theorem feed_cons {item : Nat × Line} (h : m.feed (item :: items) = (feedings, some last)) :
    ∃ f rest, feedings = f :: rest ∧ f.before = m ∧ (f.index, f.line) = item ∧ f.Fed ∧
      f.after.feed items = (rest, some last) := by
  obtain ⟨i, line⟩ := item
  simp only [feed] at h
  split at h
  · cases h
  · next after outcome hstep =>
    obtain ⟨rfl, hlast⟩ := Prod.mk.inj h
    exact ⟨_, _, rfl, rfl, rfl, Feeding.fed_of_step? hstep, Prod.ext rfl hlast⟩

theorem fed_of_feed (h : m.feed items = (feedings, some last)) :
    feedings.map (fun f ↦ (f.index, f.line)) = items ∧ m :: feedings.map (·.after) = feedings.map (·.before) ++ [last] ∧
      ∀ f ∈ feedings, f.Fed ∧ f.before.grammar = m.grammar := by
  induction items generalizing m feedings with
  | nil =>
    cases h
    exact ⟨rfl, rfl, List.forall_mem_nil _⟩
  | cons item items ih =>
    obtain ⟨f, rest, rfl, rfl, hitem, hfed, hrest⟩ := feed_cons h
    obtain ⟨hitems, hlinked, hrest⟩ := ih hrest
    refine ⟨?_, ?_, List.forall_mem_cons.mpr ⟨⟨hfed, rfl⟩, fun g hg ↦ ?_⟩⟩
    · rw [List.map_cons, hitems, hitem]
    · rw [List.map_cons, List.map_cons, hlinked, List.cons_append]
    · exact ⟨(hrest g hg).1, (hrest g hg).2.trans hfed.frame.1⟩

theorem outside_of_feed (hpos : m.position = .outside) (hitems : ∀ item ∈ items, item.1 ≠ m.entryLine)
    (h : m.feed items = (feedings, some last)) :
    (∀ f ∈ feedings, f.Outside m.entryLine) ∧ last.position = .outside := by
  induction items generalizing m feedings with
  | nil =>
    cases h
    exact ⟨List.forall_mem_nil _, hpos⟩
  | cons item items ih =>
    obtain ⟨f, rest, rfl, rfl, rfl, hfed, hrest⟩ := feed_cons h
    obtain ⟨hindex, hitems⟩ := List.forall_mem_cons.mp hitems
    rcases hfed.of_outside hpos with ⟨-, hafter⟩ | ⟨heq, -⟩
    · obtain ⟨houtside, hlast⟩ := ih hafter (by rwa [hfed.frame.2]) hrest
      rw [hfed.frame.2] at houtside
      exact ⟨List.forall_mem_cons.mpr ⟨⟨hindex, hpos, hafter⟩, houtside⟩, hlast⟩
    · exact absurd heq hindex

end Machine

theorem Body.cons (hindex : f.index ≠ e) (hbefore : f.before.position = .inside e n (bodyIndent? earlier))
    (hafter : f.after.position = .inside e n (bodyIndent? (earlier ++ [f])))
    (hopen : f.isCode = true → d.grammar.closesBlock f.line n = false) (h : Body d e n (earlier ++ [f]) body) :
    Body d e n earlier (f :: body) where
  positions seen g later hsplit := by
    cases seen with
    | nil =>
      obtain ⟨rfl, rfl⟩ := List.cons.inj hsplit
      rw [List.append_nil, List.nil_append]
      exact ⟨hbefore, hafter⟩
    | cons g' seen =>
      obtain ⟨rfl, hrest⟩ := List.cons.inj hsplit
      have hpositions := h.positions seen g later hrest
      rwa [List.append_assoc, List.append_assoc] at hpositions
  «open» := List.forall_mem_cons.mpr ⟨⟨hindex, hopen⟩, h.open⟩

theorem Body.nil : Body d e n earlier [] where
  positions seen g later hsplit := by simp at hsplit
  «open» := List.forall_mem_nil _

theorem Course.cons (hf : f.Outside e) (h : Course d e feedings position) : Course d e (f :: feedings) position := by
  cases h with
  | outside houtside => exact .outside (List.forall_mem_cons.mpr ⟨hf, houtside⟩)
  | entered hfront hindex hbefore hafter hbody hending =>
    exact .entered (List.forall_mem_cons.mpr ⟨hf, hfront⟩) hindex hbefore hafter hbody hending

namespace Machine

theorem inside_of_feed (hg : m.grammar = d.grammar) (hpos : m.position = .inside m.entryLine n (bodyIndent? earlier))
    (hitems : ∀ item ∈ items, item.1 ≠ m.entryLine) (h : m.feed items = (feedings, some last)) :
    ∃ body ending, feedings = body ++ ending ∧ Body d m.entryLine n earlier body ∧
      Departure d m.entryLine n (earlier ++ body) ending last.position := by
  induction items generalizing m feedings earlier with
  | nil =>
    cases h
    rw [hpos]
    exact ⟨[], [], rfl, .nil, by rw [List.append_nil]; exact .open⟩
  | cons item items ih =>
    obtain ⟨f, rest, rfl, rfl, rfl, hfed, hrest⟩ := feed_cons h
    obtain ⟨hindex, hitems⟩ := List.forall_mem_cons.mp hitems
    obtain ⟨hgrammar, hentry⟩ := hfed.frame
    rw [← hentry] at hitems
    rcases hfed.of_inside hg hpos with ⟨hopen, hafter⟩ | ⟨hcode, hcloses, hafter⟩
    · obtain ⟨body, ending, rfl, hbody, hending⟩ := ih (hgrammar.trans hg) (by rwa [hentry]) hitems hrest
      rw [hentry] at hbody hending
      rw [List.append_assoc] at hending
      exact ⟨f :: body, ending, rfl, hbody.cons hindex hpos hafter hopen, hending⟩
    · obtain ⟨hback, hlast⟩ := outside_of_feed hafter hitems hrest
      rw [hentry] at hback
      rw [hlast]
      refine ⟨[], f :: rest, rfl, .nil, ?_⟩
      rw [List.append_nil]
      exact .closed hindex hpos hcode hcloses hafter hback

theorem course_of_feed (hg : m.grammar = d.grammar) (hpos : m.position = .outside)
    (hitems : (items.map Prod.fst).Pairwise (· < ·)) (h : m.feed items = (feedings, some last)) :
    Course d m.entryLine feedings last.position := by
  induction items generalizing m feedings with
  | nil =>
    cases h
    rw [hpos]
    exact .outside (List.forall_mem_nil _)
  | cons item items ih =>
    obtain ⟨f, rest, rfl, rfl, rfl, hfed, hrest⟩ := feed_cons h
    rw [List.map_cons, List.pairwise_cons] at hitems
    obtain ⟨hlater, hitems⟩ := hitems
    obtain ⟨hgrammar, hentry⟩ := hfed.frame
    rcases hfed.of_outside hpos with ⟨hindex, hafter⟩ | ⟨hindex, hafter⟩
    · have hcourse := ih (hgrammar.trans hg) hafter hitems hrest
      rw [hentry] at hcourse
      exact hcourse.cons ⟨hindex, hpos, hafter⟩
    · have hothers : ∀ item ∈ items, item.1 ≠ f.after.entryLine := by
        intro item hitem
        rw [hentry, ← hindex]
        exact (hlater _ (List.mem_map_of_mem hitem)).ne'
      have hinside : f.after.position = .inside f.after.entryLine (indentWidth f.line) (bodyIndent? []) := by
        rw [hentry]
        exact hafter
      obtain ⟨body, ending, rfl, hbody, hending⟩ := inside_of_feed (hgrammar.trans hg) hinside hothers hrest
      rw [hentry] at hbody hending
      exact .entered (List.forall_mem_nil _) hindex hpos hafter hbody hending

end Machine

theorem Course.closings (h : Course d e feedings position) (hobeys : ∀ f ∈ feedings, f.Obeys d) :
    (feedings.filter fun f ↦ f.edit? = some .blockEnd).length ≤ 1 := by
  cases h with
  | outside houtside =>
    rw [Feeding.Obeys.filter_outside hobeys fun f hf ↦ .inl (houtside f hf).before]
    exact Nat.zero_le _
  | @entered front body ending entry position hfront hindex hbefore hafter hbody hending =>
    have hquiet : ∀ f ∈ front ++ entry :: body, f.before.position = .outside ∨ f.after.position ≠ .outside := by
      refine List.forall_mem_append.mpr ⟨fun f hf ↦ .inl (hfront f hf).before,
        List.forall_mem_cons.mpr ⟨.inl hbefore, fun f hf ↦ .inr ?_⟩⟩
      obtain ⟨seen, later, hsplit⟩ := List.append_of_mem hf
      rw [(hbody.positions seen f later hsplit).2]
      exact Position.noConfusion
    have hsplit : front ++ entry :: (body ++ ending) = (front ++ entry :: body) ++ ending := by simp
    rw [hsplit] at hobeys ⊢
    obtain ⟨hobeys, hobeysEnding⟩ := List.forall_mem_append.mp hobeys
    rw [List.filter_append, Feeding.Obeys.filter_outside hobeys hquiet, List.nil_append]
    cases hending with
    | «open» => exact Nat.zero_le _
    | closed _ _ _ _ _ hback =>
      obtain ⟨-, hobeysBack⟩ := List.forall_mem_cons.mp hobeysEnding
      rw [List.filter_cons, Feeding.Obeys.filter_outside hobeysBack fun g hg ↦ .inl (hback g hg).before]
      split <;> simp

/-- Fed with lines whose numbers increase, a machine lawfully passes the block of its entry line. -/
theorem feed_lawful (d : Dialect) (entryLine : Nat) (hitems : (items.map Prod.fst).Pairwise (· < ·))
    (h : Machine.feed { grammar := d.grammar, entryLine } items = (feedings, some last)) :
    LawfulFeed d entryLine items feedings last := by
  obtain ⟨hfed, hlinked, hfeds⟩ := Machine.fed_of_feed h
  have hobeys : ∀ f ∈ feedings, f.Obeys d := fun f hf ↦ (hfeds f hf).1.obeys (hfeds f hf).2
  have hcourse : Course d entryLine feedings last.position := Machine.course_of_feed rfl rfl hitems h
  exact ⟨hfed, hlinked, hobeys, hcourse, hcourse.closings hobeys⟩

def unclosedItems : List (Nat × Line) :=
  [(1, "function f() \x7b\x7d".toList), (4, "function main() \x7b".toList), (5, "// 1".toList),
    (7, "  console.log(".toList), (8, "    console.log(2);".toList), (9, "\x7d".toList), (11, "\x7d".toList)]

def unclosedFeed : List Feeding × Option Machine :=
  Machine.feed { grammar := Dialect.javaScript.grammar, entryLine := 4 } unclosedItems

theorem feed_lawful_unclosed : ∃ last, LawfulFeed .javaScript 4 unclosedItems unclosedFeed.1 last ∧
    unclosedFeed.1.map (fun f ↦ f.outcome.toOption.map fun step ↦ step.emitted.map fun e ↦ String.ofList e.text) =
      [some ["function f() \x7b\x7d"], some ["const answers = []; function main() \x7b"], some ["// 1"], none,
        some ["    answers.push(2);"], some ["  return answers;", "\x7d"], some ["\x7d"]] := by
  have hsome : unclosedFeed.2.isSome = true := by decide +kernel
  obtain ⟨last, hlast⟩ := Option.isSome_iff_exists.mp hsome
  have hfeed : unclosedFeed = (unclosedFeed.1, some last) := Prod.ext rfl hlast
  exact ⟨last, feed_lawful .javaScript 4 (by decide) hfeed, by decide +kernel⟩

end AnswerKey
