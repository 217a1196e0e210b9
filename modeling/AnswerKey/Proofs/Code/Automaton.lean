import AnswerKey.Proofs.Code.Commentary

namespace AnswerKey.Code

open Text

def slashComments : CommentStyle := ⟨['/', '/'], some (['/', '*'], ['*', '/'])⟩

/-- How the next character is read; a slash may begin a delimiter of comments, a star may end one. -/
inductive Place where
  | code (slash : Bool)
  | literal (quote : Char) (escaped : Bool)
  | lineComment
  | blockComment (star : Bool)
deriving DecidableEq

namespace Place

def ofMode : Mode → Place
  | .code => .code false
  | .literal quote escaped => .literal quote escaped

def next : Place → Char → Place
  | .code slash, c =>
    if slash = true ∧ c = '/' then .lineComment
    else if slash = true ∧ c = '*' then .blockComment false
    else if c = '/' then .code true
    else ofMode (Mode.code.next c)
  | .literal quote escaped, c => ofMode ((Mode.literal quote escaped).next c)
  | .lineComment, _ => .lineComment
  | .blockComment star, c => if star = true ∧ c = '/' then .code false else .blockComment (c == '*')

def after (p : Place) (text : List Char) : Place := text.foldl next p

def isCode : Place → Bool
  | .code _ => true
  | _ => false

def inBlock : Place → Bool
  | .blockComment _ => true
  | _ => false

/-- The place after a text none of whose code is beyond ASCII. -/
def scan? : Place → List Char → Option Place
  | p, [] => some p
  | p, c :: text => if p.isCode = true ∧ 0x80 ≤ c.toNat then none else (p.next c).scan? text

variable {p : Place} {text : List Char} {c : Char}

theorem scan?_eq_none_iff : p.scan? text = none ↔
    ∃ front c rest, text = front ++ c :: rest ∧ (p.after front).isCode = true ∧ 0x80 ≤ c.toNat := by
  induction text generalizing p with
  | nil => simp [scan?]
  | cons c text ih =>
    by_cases hc : p.isCode = true ∧ 0x80 ≤ c.toNat
    · rw [scan?, if_pos hc]
      exact iff_of_true rfl ⟨[], c, text, rfl, hc⟩
    · rw [scan?, if_neg hc, ih]
      constructor
      · intro h
        obtain ⟨front, a, rest, rfl, ha⟩ := h
        exact ⟨c :: front, a, rest, rfl, ha⟩
      · intro h
        obtain ⟨front, a, rest, htext, ha⟩ := h
        cases front with
        | nil =>
          obtain ⟨rfl, rfl⟩ := List.cons.inj htext
          exact absurd ha hc
        | cons b front =>
          obtain ⟨rfl, rfl⟩ := List.cons.inj htext
          exact ⟨front, a, rest, rfl, ha⟩

theorem scan?_of_not_isCode (h : p.isCode = false) : p.scan? (c :: text) = (p.next c).scan? text := by
  rw [scan?, if_neg (by simp [h])]

theorem scan?_lineComment (text : List Char) : lineComment.scan? text = some lineComment := by
  induction text with
  | nil => rfl
  | cons c text ih => rw [scan?_of_not_isCode rfl, next, ih]

theorem scan?_code_of_slash (hline : startsWith ('/' :: text) ['/', '/'] = false)
    (hblock : after? ['/', '*'] ('/' :: text) = none) :
    ((code true).scan? text).map inBlock = ((code false).scan? text).map inBlock := by
  cases text with
  | nil => rfl
  | cons c text =>
    have hc : c ≠ '/' := by
      rintro rfl
      simp [startsWith, after?] at hline
    have hc' : c ≠ '*' := by
      rintro rfl
      simp [after?] at hblock
    have hnext : (code true).next c = (code false).next c := by simp [next, hc, hc']
    rw [scan?, scan?, hnext]
    rfl

theorem scan?_blockComment (star : Bool) (text : List Char) :
    ((blockComment star).scan? text).map inBlock =
      match (cut? ['*', '/'] (if star then '*' :: text else text)).map Prod.snd with
      | some outer => ((code false).scan? outer).map inBlock
      | none => some true := by
  induction text generalizing star with
  | nil => cases star <;> rfl
  | cons c text ih =>
    rw [scan?_of_not_isCode rfl, next]
    by_cases hend : star = true ∧ c = '/'
    · obtain ⟨rfl, rfl⟩ := hend
      rw [if_pos ⟨rfl, rfl⟩]
      rfl
    · rw [if_neg hend, ih]
      have hstar : (cut? ['*', '/'] (if star then '*' :: c :: text else c :: text)).map Prod.snd =
          (cut? ['*', '/'] (c :: text)).map Prod.snd := by
        cases star with
        | false => rfl
        | true =>
          have hc : '/' ≠ c := fun h ↦ hend ⟨rfl, h.symm⟩
          simp [cut?, after?, hc, Function.comp_def]
      have hc : (cut? ['*', '/'] (if c == '*' then '*' :: text else text)).map Prod.snd =
          (cut? ['*', '/'] (c :: text)).map Prod.snd := by
        by_cases hc : c = '*'
        · rw [hc]
          rfl
        · have hc' : '*' ≠ c := Ne.symm hc
          simp [cut?, after?, hc, hc', Function.comp_def]
      rw [hstar, hc]

theorem leavesOpen?_eq (mode : Mode) (text : List Char) :
    leavesOpen? ['/', '/'] ['/', '*'] ['*', '/'] mode text = ((ofMode mode).scan? text).map inBlock := by
  fun_induction leavesOpen? ['/', '/'] ['/', '*'] ['*', '/'] mode text with
  | case1 mode => cases mode <;> rfl
  | case2 mode c text hmode ih =>
    cases mode with
    | code => exact absurd rfl hmode
    | literal quote escaped => rw [ih, ofMode, scan?_of_not_isCode rfl, next]
  | case3 mode c text hmode hline =>
    obtain rfl := Decidable.not_not.mp hmode
    obtain ⟨rest, hrest⟩ := Option.isSome_iff_exists.mp hline
    obtain ⟨rfl, rfl⟩ := List.cons.inj (after?_eq_some_iff.mp hrest)
    exact (congrArg (Option.map inBlock) (scan?_lineComment rest)).symm
  | case4 _ _ _ _ _ _ _ _ _ _ h => cases h
  | case5 mode c text hmode _ inner hopen _ outer hcut _ ih =>
    obtain rfl := Decidable.not_not.mp hmode
    obtain ⟨rfl, rfl⟩ := List.cons.inj (after?_eq_some_iff.mp hopen)
    have hscan := scan?_blockComment false inner
    rw [if_neg Bool.false_ne_true, hcut] at hscan
    exact ih.trans hscan.symm
  | case6 mode c text hmode _ inner hopen hcut =>
    obtain rfl := Decidable.not_not.mp hmode
    obtain ⟨rfl, rfl⟩ := List.cons.inj (after?_eq_some_iff.mp hopen)
    have hscan := scan?_blockComment false inner
    rw [if_neg Bool.false_ne_true, hcut] at hscan
    exact hscan.symm
  | case7 mode c text hmode hline hopen hc ih =>
    obtain rfl := Decidable.not_not.mp hmode
    have hascii : ¬((code false).isCode = true ∧ 0x80 ≤ c.toNat) := fun h ↦ absurd hc (Nat.not_lt_of_le h.2)
    rw [ih, ofMode, scan?, if_neg hascii]
    by_cases hslash : c = '/'
    · subst hslash
      exact (scan?_code_of_slash (Bool.eq_false_iff.mpr hline) hopen).symm
    · simp [next, hslash]
  | case8 mode c text hmode hline hopen hc =>
    obtain rfl := Decidable.not_not.mp hmode
    rw [ofMode, scan?, if_pos ⟨rfl, Nat.le_of_not_lt hc⟩]
    rfl

end Place

/-- The place at which a tracker begins a line. -/
def Tracker.place (t : Tracker) : Place := if t.inBlock then .blockComment false else .code false

/-- Whether the line has a character beyond ASCII that is read as code. -/
def Tracker.Unscannable (t : Tracker) (line : Line) : Prop :=
  ∃ front c rest, trimStart line = front ++ c :: rest ∧ (t.place.after front).isCode = true ∧ 0x80 ≤ c.toNat

namespace Tracker

variable {t : Tracker} {line : Line}

/-- What a line leaves a tracker in is what its characters leave the automaton in. -/
theorem feed?_slashComments (t : Tracker) (line : Line) :
    (t.feed? slashComments line).map (·.2.inBlock) = (t.place.scan? (trimStart line)).map Place.inBlock := by
  have hblock : slashComments.block = some (['/', '*'], ['*', '/']) := rfl
  have hscan (flag : Bool) (text : List Char) :
      ((leavesOpen? slashComments.line ['/', '*'] ['*', '/'] .code text).map
        fun b ↦ (flag, (⟨b⟩ : Tracker))).map (·.2.inBlock) = ((Place.code false).scan? text).map Place.inBlock := by
    rw [Option.map_map]
    exact Option.map_id'.trans (Place.leavesOpen?_eq .code text)
  have hcomment (text : List Char) := Place.scan?_blockComment false text
  simp only [Bool.false_eq_true, if_false] at hcomment
  simp only [feed?, hblock, place]
  split
  · next hin =>
    rw [hcomment]
    split
    · next hcut =>
      rw [hcut, hscan]
      rfl
    · next hcut =>
      rw [hcut, Option.map_some, hin]
      rfl
  · next hin =>
    split
    · next inner hopen =>
      have hplace : (Place.code false).scan? (trimStart line) = (Place.blockComment false).scan? inner := by
        rw [after?_eq_some_iff.mp hopen]
        rfl
      rw [hplace, hcomment]
      split
      · next hcut =>
        rw [hcut, hscan]
        rfl
      · next hcut =>
        rw [hcut]
        rfl
    · split
      · next hline =>
        obtain ⟨rest, hrest⟩ := Option.isSome_iff_exists.mp hline
        have hplace : (Place.code false).scan? (trimStart line) = Place.lineComment.scan? rest := by
          rw [after?_eq_some_iff.mp hrest]
          rfl
        rw [hplace, Place.scan?_lineComment, Option.map_some, Bool.eq_false_iff.mpr hin]
        rfl
      · exact hscan false _

theorem feed?_eq_none_iff : t.feed? slashComments line = none ↔ t.Unscannable line := by
  have h := congrArg Option.isNone (feed?_slashComments t line)
  simp only [Option.isNone_map] at h
  rw [← Option.isNone_iff_eq_none, h, Option.isNone_iff_eq_none, Place.scan?_eq_none_iff]
  rfl

end Tracker
end AnswerKey.Code
