import AnswerKey.Dialect.Grammars
import AnswerKey.Proofs.Code.Automaton
import AnswerKey.Proofs.Code.Rounds

namespace AnswerKey

open Text Code

namespace Code

namespace Place

/-- Only a block comment goes on behind the end of a line. -/
def endLine : Place → Place
  | .blockComment _ => .blockComment false
  | _ => .code false

def afterLines (p : Place) (lines : List Line) : Place := lines.foldl (fun p line ↦ (p.after line).endLine) p

variable {p q : Place} {text : List Char}

theorem after_append (p : Place) (s t : List Char) : p.after (s ++ t) = (p.after s).after t := List.foldl_append

theorem afterLines_append (p : Place) (front back : List Line) :
    p.afterLines (front ++ back) = (p.afterLines front).afterLines back := List.foldl_append

theorem eq_after_of_scan? (h : p.scan? text = some q) : q = p.after text := by
  induction text generalizing p with
  | nil => exact (Option.some.inj h).symm
  | cons c text ih =>
    rw [scan?] at h
    split at h
    · cases h
    · exact ih h

theorem endLine_eq (p : Place) : p.endLine = if p.inBlock then .blockComment false else .code false := by
  cases p <;> rfl

end Place

namespace Tracker

variable {t u : Tracker} {w : List Char} {line : Line} {lines : List Line} {commentary : Bool}

theorem inBlock_place (t : Tracker) : t.place.inBlock = t.inBlock := by
  rcases t with ⟨_ | _⟩ <;> rfl

theorem place_after_blank (t : Tracker) (hw : isBlankLine w = true) : t.place.after w = t.place := by
  induction w with
  | nil => rfl
  | cons c w ih =>
    simp only [isBlankLine, List.all_cons, Bool.and_eq_true] at hw
    have hslash : c ≠ '/' := by
      rintro rfl
      exact absurd hw.1 (by decide)
    have hstar : c ≠ '*' := by
      rintro rfl
      exact absurd hw.1 (by decide)
    have hnext : t.place.next c = t.place := by
      have hcode : Mode.code.next c = .code := (isPlain_of_isBlank hw.1).next_eq
      rcases t with ⟨_ | _⟩
      · simp [place, Place.next, hslash, hcode, Place.ofMode]
      · simp [place, Place.next, hstar]
    exact (congrArg (Place.after · w) hnext).trans (ih hw.2)

theorem place_after_trimStart (t : Tracker) (line : Line) : t.place.after (trimStart line) = t.place.after line := by
  have hblank : isBlankLine (indentation line) = true := List.all_takeWhile
  conv_rhs => rw [← indentation_append_trimStart line, Place.after_append, t.place_after_blank hblank]

/-- A tracker begins the next line where the automaton ends this one. -/
theorem place_of_feed? (h : t.feed? slashComments line = some (commentary, u)) :
    u.place = (t.place.after line).endLine := by
  have hscan := feed?_slashComments t line
  rw [h, Option.map_some] at hscan
  obtain ⟨q, hq, hin⟩ := Option.map_eq_some_iff.mp hscan.symm
  obtain rfl := Place.eq_after_of_scan? hq
  rw [place_after_trimStart] at hin
  rw [Place.endLine_eq, hin]
  rfl

theorem place_of_after? (h : t.after? slashComments lines = some u) : u.place = t.place.afterLines lines := by
  induction lines generalizing t with
  | nil =>
    cases h
    rfl
  | cons line lines ih =>
    obtain ⟨commentary, v, hfeed, hv⟩ := after?_cons_eq_some.mp h
    rw [ih hv, place_of_feed? hfeed]
    rfl

end Tracker

end Code

namespace Dialect

variable {d : Dialect}

theorem comments_grammar (h : d ≠ .python) : d.grammar.comments = slashComments := by
  cases d with
  | java => rfl
  | javaScript => rfl
  | python => exact absurd rfl h

/-- What a tracker says of a line and keeps of it, told by the automaton's places in front of the line and behind it. -/
structure ReadAs (d : Dialect) (before behind : Place) (line : Line) (t u : Tracker) (commentary : Bool) : Prop where
  feed : t.feed? d.grammar.comments line = some (commentary, u)
  flag : commentary = true ↔ before.inBlock = true ∨ opensComment d.grammar.comments line = true
  inBlock : u.inBlock = behind.inBlock

theorem readAs_of_feed? (hd : d ≠ .python) {t u : Tracker} {front : List Line} {line : Line} {commentary : Bool}
    (ht : Tracker.after? d.grammar.comments {} front = some t)
    (h : t.feed? d.grammar.comments line = some (commentary, u)) :
    d.ReadAs (Place.afterLines (.code false) front) (Place.afterLines (.code false) (front ++ [line])) line t u
      commentary := by
  have hblock : d.grammar.comments.block ≠ none := by
    rw [comments_grammar hd]
    exact Option.some_ne_none _
  have hflag := Tracker.feed?_commentary hblock h
  rw [comments_grammar hd] at ht
  have hbefore : t.place = Place.afterLines (.code false) front := Tracker.place_of_after? ht
  have hbehind : u.place = Place.afterLines (.code false) (front ++ [line]) := by
    rw [comments_grammar hd] at h
    rw [Place.afterLines_append, ← hbefore]
    exact Tracker.place_of_feed? h
  refine ⟨h, ?_, ?_⟩
  · rw [hflag, Bool.or_eq_true, ← hbefore, Tracker.inBlock_place]
  · rw [← hbehind, Tracker.inBlock_place]

/-- Every line that is read is read as the automaton reads its characters, and every scan of code ends. -/
theorem tracker_follows_automaton (hd : d ≠ .python) :
    (∀ lines flags, Tracker.classify? d.grammar.comments {} lines = some flags → flags.length = lines.length ∧
      ∀ front line back, lines = front ++ line :: back → ∃ t u commentary,
        Tracker.after? d.grammar.comments {} front = some t ∧ flags[front.length]? = some commentary ∧
        d.ReadAs (Place.afterLines (.code false) front) (Place.afterLines (.code false) (front ++ [line])) line t u
          commentary) ∧
    ∃ opener closer, d.grammar.comments.block = some (opener, closer) ∧ ∀ text n, byteLength text < n →
      scanRounds d.grammar.comments.line opener closer text n .code 0 =
        .ofAnswer (leavesOpen? d.grammar.comments.line opener closer .code text) := by
  constructor
  · intro lines flags h
    refine ⟨Tracker.length_of_classify? h, ?_⟩
    rintro front line back rfl
    obtain ⟨first, t, rest, hfirst, ht, hrest, rfl⟩ := Tracker.classify?_append_eq_some.mp h
    obtain ⟨commentary, u, others, hfeed, -, rfl⟩ := Tracker.classify?_cons_eq_some.mp hrest
    have hflag : (first ++ commentary :: others)[front.length]? = some commentary := by
      rw [← Tracker.length_of_classify? hfirst, List.getElem?_append_right (Nat.le_refl _), Nat.sub_self]
      rfl
    exact ⟨t, u, commentary, ht, hflag, readAs_of_feed? hd ht hfeed⟩
  · rw [comments_grammar hd]
    refine ⟨['/', '*'], ['*', '/'], rfl, fun text n hn ↦ ?_⟩
    exact scanRounds_eq (List.cons_ne_nil _ _) Mode.isProper_code [] hn

def overlapping : List Line :=
  ["a = '/*'; /*/ b".toList, "**/ c = \"\\\"/*\"; // /*".toList, "  /*/ d */*/".toList, "*/ e /**/".toList, "f".toList]

theorem tracker_follows_automaton_overlapping :
    javaScript ≠ .python ∧
    Tracker.classify? javaScript.grammar.comments {} overlapping = some [false, true, true, false, false] ∧
    (∃ t u commentary, Tracker.after? javaScript.grammar.comments {} (overlapping.take 2) = some t ∧
      javaScript.ReadAs (Place.afterLines (.code false) (overlapping.take 2))
        (Place.afterLines (.code false) (overlapping.take 3)) "  /*/ d */*/".toList t u commentary) ∧
    scanRounds ['/', '/'] ['/', '*'] ['*', '/'] "é".toList 3 .code 0 =
      .ofAnswer (leavesOpen? ['/', '/'] ['/', '*'] ['*', '/'] .code "é".toList) := by
  have hd : javaScript ≠ .python := by decide
  have hflags : Tracker.classify? javaScript.grammar.comments {} overlapping =
      some [false, true, true, false, false] := by decide +kernel
  obtain ⟨hlines, _, _, hblock, hrounds⟩ := tracker_follows_automaton hd
  obtain ⟨-, hread⟩ := hlines _ _ hflags
  obtain ⟨t, u, commentary, ht, -, hline⟩ :=
    hread (overlapping.take 2) "  /*/ d */*/".toList (overlapping.drop 3) rfl
  obtain ⟨rfl, rfl⟩ := Prod.mk.inj (Option.some.inj hblock)
  exact ⟨hd, hflags, ⟨t, u, commentary, ht, hline⟩, hrounds _ 3 (by decide)⟩

end Dialect

end AnswerKey
