import AnswerKey.Proofs.Dialect.ClassLine

namespace AnswerKey.Java

open Text Reading

variable {text rest inside behind blanks : Line} {c : Char} {n : Nat}

theorem isTypeChar_eq_false_of_isBlank (h : isBlank c = true) : isTypeChar c = false := by
  have hdot : c ≠ '.' := by
    rintro rfl
    exact absurd h (by decide)
  simp [isTypeChar, isWord_eq_false_of_isBlank h, hdot]

theorem isBlank_eq_false_of_isTypeChar (h : isTypeChar c = true) : isBlank c = false := by
  by_contra hblank
  rw [Bool.not_eq_false] at hblank
  exact Bool.false_ne_true ((isTypeChar_eq_false_of_isBlank hblank).symm.trans h)

theorem isTypeChar_of_isWord (h : isWord c = true) : isTypeChar c = true := by simp [isTypeChar, h]

def argsText : Option (Line × Line) → Line
  | none => []
  | some (blanks, inside) => blanks ++ '<' :: (inside ++ ['>'])

def bracketsText (brackets : List (Line × Line)) : Line := brackets.flatMap fun b ↦ b.1 ++ '[' :: (b.2 ++ [']'])

/-- A type as it is written. -/
structure TypeText where
  name : Line
  args : Option (Line × Line)
  brackets : List (Line × Line)
  name_ne_nil : name ≠ [] := by decide
  name_chars : ∀ c ∈ name, isTypeChar c = true := by exact List.all_eq_true.mp (by decide)
  args_plain : ∀ a ∈ args, isBlankLine a.1 = true ∧ '(' ∉ a.2 ∧ ')' ∉ a.2 := by decide
  brackets_blank : ∀ b ∈ brackets, isBlankLine b.1 = true ∧ isBlankLine b.2 = true := by decide

namespace TypeText

def behindName (t : TypeText) : Line := argsText t.args ++ bracketsText t.brackets

def written (t : TypeText) : Line := t.name ++ t.behindName

/-- No blanks stand inside the brackets. -/
def Tight (t : TypeText) : Prop := ∀ b ∈ t.brackets, b.2 = []

instance (t : TypeText) : Decidable t.Tight := inferInstanceAs (Decidable (∀ b ∈ t.brackets, b.2 = []))

end TypeText

section

variable {brackets brackets' : List (Line × Line)}

theorem bracketsText_cons (b : Line × Line) (brackets : List (Line × Line)) (behind : Line) :
    bracketsText (b :: brackets) ++ behind = b.1 ++ '[' :: (b.2 ++ ']' :: (bracketsText brackets ++ behind)) := by
  simp [bracketsText]

theorem trimStart_blanks_cons (hblanks : isBlankLine blanks = true) (hc : isBlank c = false) (rest : Line) :
    trimStart (blanks ++ c :: rest) = c :: rest := by
  rw [trimStart_append hblanks]
  exact List.dropWhile_cons_of_neg (by simp [hc])

theorem run_eq_of_append_eq {p : Char → Bool} {run run' rest' : Line} (hrun : ∀ c ∈ run, p c = true)
    (hrest : ∀ c ∈ rest.head?, p c = false) (hrun' : ∀ c ∈ run', p c = true) (hrest' : ∀ c ∈ rest'.head?, p c = false)
    (h : run ++ rest = run' ++ rest') : run = run' ∧ rest = rest' := by
  have htake {run rest : Line} (hrun : ∀ c ∈ run, p c = true) (hrest : ∀ c ∈ rest.head?, p c = false) :
      (run ++ rest).takeWhile p = run := by
    rw [List.takeWhile_append_of_pos hrun]
    cases rest with
    | nil => exact List.append_nil run
    | cons c rest => rw [List.takeWhile_cons_of_neg (by simp [hrest c rfl]), List.append_nil]
  have hruns := congrArg (List.takeWhile p) h
  rw [htake hrun hrest, htake hrun' hrest'] at hruns
  obtain rfl := hruns
  exact ⟨rfl, List.append_cancel_left h⟩

theorem eq_of_blanks_cons_eq {blanks' rest' : Line} {c' : Char} (hblanks : isBlankLine blanks = true)
    (hblanks' : isBlankLine blanks' = true) (hc : isBlank c = false) (hc' : isBlank c' = false)
    (h : blanks ++ c :: rest = blanks' ++ c' :: rest') : blanks = blanks' ∧ c :: rest = c' :: rest' :=
  run_eq_of_append_eq (isBlank_of_mem hblanks) (by simpa using hc) (isBlank_of_mem hblanks') (by simpa using hc') h

theorem head?_blanks_cons {p : Char → Bool} (hblanks : isBlankLine blanks = true)
    (hp : ∀ c, isBlank c = true → p c = false)
    (hc : p c = false) (rest : Line) : ∀ d ∈ (blanks ++ c :: rest).head?, p d = false := by
  cases blanks with
  | nil => simpa using hc
  | cons b blanks =>
    intro d hd
    obtain rfl := Option.some.inj hd
    exact hp b (isBlank_of_mem hblanks b List.mem_cons_self)

theorem bracketsText_injective (h : ∀ b ∈ brackets, isBlankLine b.1 = true ∧ isBlankLine b.2 = true)
    (h' : ∀ b ∈ brackets', isBlankLine b.1 = true ∧ isBlankLine b.2 = true)
    (heq : bracketsText brackets = bracketsText brackets') : brackets = brackets' := by
  induction brackets generalizing brackets' with
  | nil =>
    cases brackets' with
    | nil => rfl
    | cons b brackets' => simp [bracketsText] at heq
  | cons b brackets ih =>
    cases brackets' with
    | nil => simp [bracketsText] at heq
    | cons b' brackets' =>
      obtain ⟨hb, h⟩ := List.forall_mem_cons.mp h
      obtain ⟨hb', h'⟩ := List.forall_mem_cons.mp h'
      rw [← List.append_nil (bracketsText (b :: _)), ← List.append_nil (bracketsText (b' :: _)), bracketsText_cons,
        bracketsText_cons] at heq
      obtain ⟨hfront, heq⟩ := eq_of_blanks_cons_eq hb.1 hb'.1 (by decide) (by decide) heq
      obtain ⟨hinside, heq⟩ := eq_of_blanks_cons_eq hb.2 hb'.2 (by decide) (by decide) (List.cons.inj heq).2
      have hrest := (List.cons.inj heq).2
      rw [List.append_nil, List.append_nil] at hrest
      rw [ih h h' hrest, Prod.ext hfront hinside]

theorem mem_bracketsText (h : ∀ b ∈ brackets, isBlankLine b.1 = true ∧ isBlankLine b.2 = true)
    (hc : c ∈ bracketsText brackets) : isBlank c = true ∨ c = '[' ∨ c = ']' := by
  obtain ⟨b, hb, hc⟩ := List.mem_flatMap.mp hc
  simp only [List.mem_append, List.mem_cons, List.not_mem_nil, or_false] at hc
  rcases hc with hc | rfl | hc | rfl
  · exact .inl (isBlank_of_mem (h b hb).1 c hc)
  · exact .inr (.inl rfl)
  · exact .inl (isBlank_of_mem (h b hb).2 c hc)
  · exact .inr (.inr rfl)

theorem angle_not_mem_bracketsText (h : ∀ b ∈ brackets, isBlankLine b.1 = true ∧ isBlankLine b.2 = true) :
    '<' ∉ bracketsText brackets ∧ '>' ∉ bracketsText brackets := by
  constructor
  · intro hc
    rcases mem_bracketsText h hc with hc | hc | hc <;> exact absurd hc (by decide)
  · intro hc
    rcases mem_bracketsText h hc with hc | hc | hc <;> exact absurd hc (by decide)

end

/-- What comes behind a type and cannot be part of it. -/
structure EndsType (behind : Line) : Prop where
  other : ∀ c ∈ behind.head?, isTypeChar c = false
  mark : ∀ c ∈ (trimStart behind).head?, c ≠ '<' ∧ c ≠ '['
  args : typeArgumentRests behind = []

section

variable {brackets : List (Line × Line)}

theorem after?_mark {mark : Char} {word : Line} (h : ∀ c ∈ text.head?, c ≠ mark) :
    after? (mark :: word) text = none := by
  cases text with
  | nil => rfl
  | cons c text => rw [after?, if_neg (Ne.symm (h c rfl))]

theorem skipArrayBrackets_append (h : ∀ b ∈ brackets, isBlankLine b.1 = true) (htight : ∀ b ∈ brackets, b.2 = [])
    (hbehind : ∀ c ∈ (trimStart behind).head?, c ≠ '[') (hn : brackets.length ≤ n) :
    skipArrayBrackets n (bracketsText brackets ++ behind) = behind := by
  induction n generalizing brackets with
  | zero =>
    obtain rfl := List.length_eq_zero_iff.mp (Nat.le_zero.mp hn)
    rfl
  | succ n ih =>
    cases brackets with
    | nil =>
      have hnone : after? ['[', ']'] (trimStart behind) = none := after?_mark hbehind
      rw [bracketsText, List.flatMap_nil, List.nil_append, skipArrayBrackets, hnone]
    | cons b brackets =>
      rw [List.forall_mem_cons] at h htight
      have hafter : after? ['[', ']'] (trimStart (bracketsText (b :: brackets) ++ behind)) =
          some (bracketsText brackets ++ behind) := by
        rw [bracketsText_cons, trimStart_blanks_cons h.1 (by decide), htight.1]
        rfl
      rw [skipArrayBrackets, hafter]
      exact ih h.2 htight.2 (Nat.le_of_succ_le_succ hn)

theorem length_le_length_bracketsText (brackets : List (Line × Line)) :
    brackets.length ≤ (bracketsText brackets).length := by
  induction brackets with
  | nil => exact Nat.zero_le _
  | cons b brackets ih =>
    simp only [bracketsText, List.flatMap_cons, List.length_append, List.length_cons] at ih ⊢
    omega

theorem typeArgumentRests_cons (hc : c ≠ '(' ∧ c ≠ ')' ∧ c ≠ '>') (text : Line) :
    typeArgumentRests (c :: text) = typeArgumentRests text := by
  rw [typeArgumentRests, if_neg (by simp [hc]), if_neg hc.2.2]

theorem typeArgumentRests_append {p : Char → Bool} (hp : p '(' = false ∧ p ')' = false ∧ p '>' = false)
    (h : ∀ c ∈ text, p c = true) (behind : Line) : typeArgumentRests (text ++ behind) = typeArgumentRests behind := by
  induction text with
  | nil => rfl
  | cons c text ih =>
    rw [List.forall_mem_cons] at h
    have hne {d : Char} (hd : p d = false) : c ≠ d := by
      rintro rfl
      exact Bool.false_ne_true (hd.symm.trans h.1)
    rw [List.cons_append, typeArgumentRests_cons ⟨hne hp.1, hne hp.2.1, hne hp.2.2⟩, ih h.2]

theorem typeArgumentRests_brackets (h : ∀ b ∈ brackets, isBlankLine b.1 = true ∧ isBlankLine b.2 = true)
    (behind : Line) : typeArgumentRests (bracketsText brackets ++ behind) = typeArgumentRests behind := by
  refine typeArgumentRests_append (p := fun c ↦ isBlank c || c == '[' || c == ']') (by decide) (fun c hc ↦ ?_) behind
  simpa [or_assoc] using mem_bracketsText h hc

theorem exists_typeArgumentRests_eq (hopen : '(' ∉ inside) (hclose : ')' ∉ inside)
    (hrest : typeArgumentRests rest = []) :
    ∃ others, typeArgumentRests (inside ++ '>' :: rest) = rest :: others := by
  induction inside with
  | nil => exact ⟨[], by rw [List.nil_append, typeArgumentRests, if_neg (by decide), if_pos rfl, hrest]; rfl⟩
  | cons c inside ih =>
    rw [List.mem_cons, not_or] at hopen hclose
    obtain ⟨others, hothers⟩ := ih hopen.2 hclose.2
    have hc : ¬ (c = '(' ∨ c = ')') := by
      rw [not_or]
      exact ⟨Ne.symm hopen.1, Ne.symm hclose.1⟩
    rw [List.cons_append, typeArgumentRests, if_neg hc, hothers]
    split
    · exact ⟨others ++ [inside ++ '>' :: rest], rfl⟩
    · exact ⟨others, rfl⟩

theorem exists_of_mem_typeArgumentRests (h : rest ∈ typeArgumentRests text) :
    ∃ inside, '(' ∉ inside ∧ ')' ∉ inside ∧ text = inside ++ '>' :: rest := by
  induction text with
  | nil => cases h
  | cons c text ih =>
    simp only [typeArgumentRests] at h
    split at h
    · cases h
    · next hc =>
      rw [not_or] at hc
      have hlonger : rest ∈ typeArgumentRests text →
          ∃ inside, '(' ∉ inside ∧ ')' ∉ inside ∧ c :: text = inside ++ '>' :: rest := by
        intro h
        obtain ⟨inside, hopen, hclose, rfl⟩ := ih h
        exact ⟨c :: inside, by simp [Ne.symm hc.1, hopen], by simp [Ne.symm hc.2, hclose], rfl⟩
      split at h
      · next hangle =>
        rcases List.mem_append.mp h with h | h
        · exact hlonger h
        · rw [List.mem_singleton.mp h, hangle]
          exact ⟨[], List.not_mem_nil, List.not_mem_nil, rfl⟩
      · exact hlonger h

theorem exists_bracketsText (n : Nat) (text : Line) : ∃ brackets : List (Line × Line),
    (∀ b ∈ brackets, isBlankLine b.1 = true ∧ b.2 = []) ∧ text = bracketsText brackets ++ skipArrayBrackets n text := by
  induction n generalizing text with
  | zero => exact ⟨[], List.forall_mem_nil _, rfl⟩
  | succ n ih =>
    simp only [skipArrayBrackets]
    split
    · next rest hafter =>
      obtain ⟨brackets, hbrackets, hrest⟩ := ih rest
      refine ⟨(indentation text, []) :: brackets, List.forall_mem_cons.mpr ⟨⟨List.all_takeWhile, rfl⟩, hbrackets⟩, ?_⟩
      rw [bracketsText_cons, ← hrest]
      exact (indentation_append_trimStart text).symm.trans
        (congrArg (indentation text ++ ·) (after?_eq_some_iff.mp hafter))
    · exact ⟨[], List.forall_mem_nil _, rfl⟩

end

theorem upTo_append (front rest : Line) : upTo (front ++ rest) rest = front := by
  rw [upTo, List.length_append, Nat.add_sub_cancel, List.take_left]

namespace TypeText

theorem head?_behindName (t : TypeText) (hbehind : EndsType behind) :
    ∀ c ∈ (t.behindName ++ behind).head?, isTypeChar c = false := by
  have hblank : ∀ c, isBlank c = true → isTypeChar c = false := fun c ↦ isTypeChar_eq_false_of_isBlank
  unfold behindName
  cases hargs : t.args with
  | some args =>
    rw [argsText, List.append_assoc, List.append_assoc, List.cons_append]
    exact head?_blanks_cons (t.args_plain args hargs).1 hblank (by decide) _
  | none =>
    rw [argsText, List.nil_append]
    cases hbrackets : t.brackets with
    | nil => exact hbehind.other
    | cons b brackets =>
      rw [bracketsText_cons]
      exact head?_blanks_cons (t.brackets_blank b (hbrackets ▸ List.mem_cons_self)).1 hblank (by decide) _

theorem mark_bracketsText (t : TypeText) (hbehind : EndsType behind) :
    ∀ c ∈ (trimStart (bracketsText t.brackets ++ behind)).head?, c ≠ '<' := by
  cases hbrackets : t.brackets with
  | nil => exact fun c hc ↦ (hbehind.mark c hc).1
  | cons b brackets =>
    rw [bracketsText_cons, trimStart_blanks_cons (t.brackets_blank b (hbrackets ▸ List.mem_cons_self)).1 (by decide)]
    simp

/-- A type is skipped as a whole before any part of it is. -/
theorem typeRests_append (t : TypeText) (htight : t.Tight) (hbehind : EndsType behind) :
    ∃ others, typeRests (t.written ++ behind) = behind :: others := by
  have hrun : run? isTypeChar (t.written ++ behind) = some (t.name, t.behindName ++ behind) :=
    run?_eq_some_iff.mpr ⟨List.append_assoc _ _ _, t.name_ne_nil, t.name_chars, t.head?_behindName hbehind⟩
  have hskip : skipArrayBrackets (bracketsText t.brackets ++ behind).length (bracketsText t.brackets ++ behind) =
      behind := by
    refine skipArrayBrackets_append (fun b hb ↦ (t.brackets_blank b hb).1) htight (fun c hc ↦ (hbehind.mark c hc).2) ?_
    rw [List.length_append]
    exact Nat.le_add_right_of_le (length_le_length_bracketsText _)
  unfold typeRests
  rw [hrun]
  cases hargs : t.args with
  | none =>
    have hbrackets : t.behindName ++ behind = bracketsText t.brackets ++ behind := by
      rw [behindName, hargs, argsText, List.nil_append]
    have hnone : after? ['<'] (trimStart (bracketsText t.brackets ++ behind)) = none :=
      after?_mark (t.mark_bracketsText hbehind)
    refine ⟨[], ?_⟩
    simp only [hbrackets, hnone, List.map_cons, List.map_nil, hskip]
  | some args =>
    obtain ⟨hblanks, hopen, hclose⟩ := t.args_plain args hargs
    have hafter : after? ['<'] (trimStart (t.behindName ++ behind)) =
        some (args.2 ++ '>' :: (bracketsText t.brackets ++ behind)) := by
      rw [behindName, hargs, argsText, List.append_assoc, List.append_assoc, List.cons_append,
        trimStart_blanks_cons hblanks (by decide)]
      simp [after?]
    have hrests : typeArgumentRests (bracketsText t.brackets ++ behind) = [] :=
      (typeArgumentRests_brackets t.brackets_blank behind).trans hbehind.args
    obtain ⟨others, hothers⟩ := exists_typeArgumentRests_eq hopen hclose hrests
    refine ⟨others.map fun rest ↦ skipArrayBrackets rest.length rest, ?_⟩
    simp only [hafter, hothers, List.map_cons, hskip]

end TypeText

/-- The last of several places where a character stands. -/
theorem eq_of_append_cons_eq {front front' back back' : Line} (h : c ∉ back) (h' : c ∉ back')
    (heq : front ++ c :: back = front' ++ c :: back') : front = front' ∧ back = back' := by
  rcases List.append_eq_append_iff.mp heq with ⟨more, rfl, hback⟩ | ⟨more, rfl, hback⟩
  · cases more with
    | nil => exact ⟨(List.append_nil _).symm, (List.cons.inj hback).2⟩
    | cons d more =>
      rw [(List.cons.inj hback).2] at h
      exact absurd (List.mem_append_right more List.mem_cons_self) h
  · cases more with
    | nil => exact ⟨List.append_nil _, ((List.cons.inj hback).2).symm⟩
    | cons d more =>
      rw [(List.cons.inj hback).2] at h'
      exact absurd (List.mem_append_right more List.mem_cons_self) h'

namespace TypeText

variable {t t' : TypeText}

theorem endsType_nil : EndsType [] := ⟨by simp, by simp [trimStart], rfl⟩

theorem run?_written (t : TypeText) : run? isTypeChar t.written = some (t.name, t.behindName) := by
  have hhead := t.head?_behindName endsType_nil
  rw [List.append_nil] at hhead
  exact run?_eq_some_iff.mpr ⟨rfl, t.name_ne_nil, t.name_chars, hhead⟩

theorem beginsCode_written (t : TypeText) (behind : Line) : BeginsCode (t.written ++ behind) := by
  rw [written, List.append_assoc]
  exact beginsCode_append t.name_ne_nil (fun c hc ↦ isBlank_eq_false_of_isTypeChar (t.name_chars c hc)) _

theorem brackets_eq_of_behindName_eq (h : t.behindName = t'.behindName) : t.brackets = t'.brackets := by
  obtain ⟨hopen, hclose⟩ := angle_not_mem_bracketsText t.brackets_blank
  obtain ⟨hopen', hclose'⟩ := angle_not_mem_bracketsText t'.brackets_blank
  unfold behindName at h
  cases hargs : t.args with
  | none =>
    cases hargs' : t'.args with
    | none =>
      rw [hargs, hargs'] at h
      exact bracketsText_injective t.brackets_blank t'.brackets_blank h
    | some args' =>
      rw [hargs, hargs'] at h
      have hmem : '<' ∈ argsText none ++ bracketsText t.brackets := by
        rw [h]
        simp [argsText]
      exact absurd hmem hopen
  | some args =>
    cases hargs' : t'.args with
    | none =>
      rw [hargs, hargs'] at h
      have hmem : '<' ∈ argsText none ++ bracketsText t'.brackets := by
        rw [← h]
        simp [argsText]
      exact absurd hmem hopen'
    | some args' =>
      have hsplit (a : Line × Line) (back : Line) : argsText (some a) ++ back = (a.1 ++ '<' :: a.2) ++ '>' :: back := by
        simp [argsText]
      rw [hargs, hargs', hsplit, hsplit] at h
      exact bracketsText_injective t.brackets_blank t'.brackets_blank (eq_of_append_cons_eq hclose hclose' h).2

theorem Tight.of_written_eq (h : t'.Tight) (heq : t.written = t'.written) : t.Tight := by
  have hrun := t.run?_written
  rw [heq, t'.run?_written] at hrun
  obtain ⟨-, hbehind⟩ := Prod.mk.inj (Option.some.inj hrun)
  intro b hb
  rw [brackets_eq_of_behindName_eq hbehind.symm] at hb
  exact h b hb

theorem exists_written_eq_concat (t : TypeText) : ∃ front c, t.written = front ++ [c] ∧ isBlank c = false := by
  unfold written behindName
  rcases List.eq_nil_or_concat t.brackets with hbrackets | ⟨brackets, b, hbrackets⟩
  · rw [hbrackets]
    cases t.args with
    | none =>
      obtain ⟨front, c, hname⟩ := (List.eq_nil_or_concat t.name).resolve_left t.name_ne_nil
      have hc : isTypeChar c = true := t.name_chars c (by simp [hname])
      exact ⟨front, c, by simp [hname, argsText, bracketsText], isBlank_eq_false_of_isTypeChar hc⟩
    | some args => exact ⟨t.name ++ (args.1 ++ '<' :: args.2), '>', by simp [argsText, bracketsText], by decide⟩
  · exact ⟨t.name ++ (argsText t.args ++ (bracketsText brackets ++ (b.1 ++ '[' :: b.2))), ']',
      by simp [hbrackets, bracketsText], by decide⟩

end TypeText

theorem exists_typeText_of_mem_typeRests (h : rest ∈ typeRests text) :
    ∃ t : TypeText, t.Tight ∧ text = t.written ++ rest := by
  unfold typeRests at h
  split at h
  · cases h
  · next name after hrun =>
    obtain ⟨rfl, hne, hname, -⟩ := run?_eq_some_iff.mp hrun
    obtain ⟨named, hnamed, rfl⟩ := List.mem_map.mp h
    obtain ⟨brackets, hbrackets, hskip⟩ := exists_bracketsText named.length named
    have hblank : ∀ b ∈ brackets, isBlankLine b.1 = true ∧ isBlankLine b.2 = true := fun b hb ↦
      ⟨(hbrackets b hb).1, by rw [(hbrackets b hb).2]; rfl⟩
    split at hnamed
    · next inner hinner =>
      obtain ⟨inside, hopen, hclose, hrest⟩ := exists_of_mem_typeArgumentRests hnamed
      refine ⟨⟨name, some (indentation after, inside), brackets, hne, hname, ?_, hblank⟩,
        fun b hb ↦ (hbrackets b hb).2, ?_⟩
      · simpa using ⟨List.all_takeWhile, hopen, hclose⟩
      · have hafter : after = indentation after ++ '<' :: (inside ++ '>' :: named) := by
          rw [← hrest]
          exact (indentation_append_trimStart after).symm.trans
            (congrArg (indentation after ++ ·) (after?_eq_some_iff.mp hinner))
        simp only [TypeText.written, TypeText.behindName, argsText, List.append_assoc, List.cons_append,
          List.nil_append, ← hskip]
        rw [← hafter]
    · obtain rfl := List.mem_singleton.mp hnamed
      exact ⟨⟨name, none, brackets, hne, hname, by simp, hblank⟩, fun b hb ↦ (hbrackets b hb).2,
        by simp only [TypeText.written, TypeText.behindName, argsText, List.append_assoc, List.nil_append, ← hskip]⟩

end AnswerKey.Java
