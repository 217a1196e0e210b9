import AnswerKey.Proofs.Code.Nesting

namespace AnswerKey.Code

abbrev Level := Nat × Mode

namespace Level

def next (level : Level) (c : Char) : Level := (bracketDepth level.2 level.1 c, level.2.next c)

def after (level : Level) (text : List Char) : Level := text.foldl next level

theorem after_append (level : Level) (s t : List Char) : level.after (s ++ t) = (level.after s).after t :=
  List.foldl_append

theorem after_cons (level : Level) (c : Char) (text : List Char) :
    level.after (c :: text) = (level.next c).after text := rfl

theorem after_snd (level : Level) (text : List Char) : (level.after text).2 = level.2.after text := by
  induction text generalizing level with
  | nil => rfl
  | cons c text ih => exact ih (level.next c)

end Level

/-- The text has a comma outside brackets and literals. -/
def HasOuterComma (text : List Char) : Prop := 1 < (segments 0 .code text).length

instance : DecidablePred HasOuterComma := fun _ ↦ inferInstanceAs (Decidable (_ < _))

variable {depth : Nat} {mode : Mode} {c : Char} {text front inner s t : List Char} {pieces : List (List Char)}

theorem Mode.count_append (mode : Mode) (c : Char) (s t : List Char) :
    mode.count c (s ++ t) = mode.count c s + (mode.after s).count c t := by
  induction s generalizing mode with
  | nil => exact (Nat.zero_add _).symm
  | cons a s ih =>
    rw [List.cons_append, Mode.count, Mode.count, ih, Nat.add_assoc]
    rfl

theorem Mode.next_literal {quote : Char} (hslash : c ≠ backslash) (hquote : c ≠ quote) :
    Mode.next (.literal quote false) c = .literal quote false := by
  rw [Mode.next, if_neg hslash, if_neg hquote]

theorem length_attach (h : pieces ≠ []) : (attach front pieces).length = pieces.length := by
  cases pieces with
  | nil => exact absurd rfl h
  | cons piece pieces => rfl

theorem one_lt_length_segments_iff : 1 < (segments depth mode text).length ↔
    ∃ front rest, text = front ++ ',' :: rest ∧ Level.after (depth, mode) front = (0, .code) := by
  induction text generalizing depth mode with
  | nil => simp [segments]
  | cons c text ih =>
    by_cases hcomma : mode = .code ∧ c = ',' ∧ depth = 0
    · obtain ⟨rfl, rfl, rfl⟩ := hcomma
      refine iff_of_true ?_ ⟨[], text, rfl, rfl⟩
      rw [segments_comma, List.length_cons]
      exact Nat.succ_lt_succ (List.length_pos_iff.mpr (segments_ne_nil _ _ _))
    · rw [segments_cons hcomma, length_attach (segments_ne_nil _ _ _), ih]
      constructor
      · rintro ⟨front, rest, rfl, hfront⟩
        exact ⟨c :: front, rest, rfl, hfront⟩
      · rintro ⟨front, rest, heq, hfront⟩
        cases front with
        | nil =>
          obtain ⟨rfl, -⟩ := List.cons.inj heq
          obtain ⟨rfl, rfl⟩ := Prod.mk.inj hfront
          exact absurd ⟨rfl, rfl, rfl⟩ hcomma
        | cons d front =>
          obtain ⟨rfl, rfl⟩ := List.cons.inj heq
          exact ⟨front, rest, rfl, hfront⟩

theorem hasOuterComma_iff : HasOuterComma text ↔
    ∃ front rest, text = front ++ ',' :: rest ∧ Level.after (0, .code) front = (0, .code) := one_lt_length_segments_iff

theorem HasOuterComma.mem (h : HasOuterComma text) : ',' ∈ text := by
  obtain ⟨front, rest, rfl, -⟩ := hasOuterComma_iff.mp h
  exact List.mem_append_right _ List.mem_cons_self

/-- Outside literals, the text opens and closes brackets and literals of its own only. -/
def IsLevel (text : List Char) : Prop := ∀ depth, Level.after (depth, .code) text = (depth, .code)

theorem IsLevel.append (hs : IsLevel s) (ht : IsLevel t) : IsLevel (s ++ t) := by
  intro depth
  rw [Level.after_append, hs, ht]

theorem isLevel_of_forall (h : ∀ c ∈ text, IsPlain c ∨ c = ',') : IsLevel text := by
  intro depth
  induction text with
  | nil => rfl
  | cons c text ih =>
    obtain ⟨hc, htext⟩ := List.forall_mem_cons.mp h
    have hnext : Level.next (depth, .code) c = (depth, .code) := by
      rcases hc with hplain | rfl
      · rw [Level.next, hplain.bracketDepth_eq, hplain.next_eq]
      · rfl
    rw [Level.after_cons, hnext, ih htext]

def IsPair (opener closer : Char) : Prop := opener = '[' ∧ closer = ']' ∨ opener = '\x7b' ∧ closer = '\x7d'

theorem IsLevel.enclosed {opener closer : Char} (h : IsLevel inner) (hpair : IsPair opener closer) :
    IsLevel (opener :: (inner ++ [closer])) := by
  intro depth
  have hopen : Level.next (depth, .code) opener = (depth + 1, .code) := by
    rcases hpair with ⟨rfl, rfl⟩ | ⟨rfl, rfl⟩ <;> rfl
  have hclose : Level.next (depth + 1, .code) closer = (depth, .code) := by
    rcases hpair with ⟨rfl, rfl⟩ | ⟨rfl, rfl⟩ <;> rfl
  rw [Level.after_cons, hopen, Level.after_append, h, Level.after_cons, hclose]
  rfl

end AnswerKey.Code
