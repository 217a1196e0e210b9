import AnswerKey.Proofs.Dialect.TypeText

namespace AnswerKey.Java

open Text Reading

variable {text rest gap name afterName : Line} {c : Char} {n : Nat} {word other : String}

def modifierWords : List String := ["public", "private", "protected", "final", "synchronized", "static"]

def wordsBeforeStatic : List String := ["public", "private", "protected", "final", "synchronized"]

def wordsAfterStatic : List String := ["final", "synchronized"]

def spaced (words : List (String × Line)) : Line := words.flatMap fun p ↦ p.1.toList ++ p.2

def paramsText : Option (Line × Line) → Line
  | none => []
  | some (inside, blanks) => '<' :: (inside ++ '>' :: blanks)

/-- A line that begins a static method with another name than `main`, in the parts it is made of. -/
structure MethodLine where
  indent : Line
  modifiers : List (String × Line)
  params : Option (Line × Line)
  type : TypeText
  gap : Line
  name : Line
  afterName : Line
  rest : Line
  indent_blank : isBlankLine indent = true := by decide
  modifiers_known : ∀ p ∈ modifiers, p.1 ∈ modifierWords ∧ isBlankLine p.2 = true := by decide
  modifiers_apart : ∀ p ∈ modifiers.dropLast, p.2 ≠ [] := by decide
  last_apart : params = none → ∀ p ∈ modifiers.getLast?, p.2 ≠ [] := by decide
  static_mem : ∃ p ∈ modifiers, p.1 = "static" := by decide
  params_blank : ∀ p ∈ params, isBlankLine p.2 = true := by decide
  gap_blank : isBlankLine gap = true := by decide
  gap_apart : gap = [] → type.behindName ≠ [] := by decide
  name_ne_nil : name ≠ [] := by decide
  name_word : ∀ c ∈ name, isWord c = true := by exact List.all_eq_true.mp (by decide)
  name_ne_main : name ≠ "main".toList := by decide
  afterName_blank : isBlankLine afterName = true := by decide

namespace MethodLine

def modifiersText (m : MethodLine) : Line := m.indent ++ (spaced m.modifiers ++ paramsText m.params)

def head (m : MethodLine) : Line :=
  m.modifiersText ++ (m.type.written ++ (m.gap ++ (m.name ++ (m.afterName ++ ['(']))))

def line (m : MethodLine) : Line := m.head ++ m.rest

def heading (m : MethodLine) : Heading := ⟨m.head, some m.name, some m.type.written⟩

/-- A line as methods are looked for: visibility in front of `static`, blanks in front of the name and none inside array
brackets, and no type parameters. -/
structure Plain (m : MethodLine) : Prop where
  order : ∃ front gap back, m.modifiers = front ++ ("static", gap) :: back ∧ (∀ p ∈ front, p.1 ∈ wordsBeforeStatic) ∧
    ∀ p ∈ back, p.1 ∈ wordsAfterStatic
  params : m.params = none
  apart : m.gap ≠ []
  tight : m.type.Tight

end MethodLine

section

variable {words words' : List (String × Line)}

theorem spaced_cons (p : String × Line) (words : List (String × Line)) (text : Line) :
    spaced (p :: words) ++ text = p.1.toList ++ (p.2 ++ (spaced words ++ text)) := by
  simp [spaced]

theorem isWord_of_mem_modifierWords (hword : word ∈ modifierWords) : ∀ c ∈ word.toList, isWord c = true := by
  have hwords : ∀ word ∈ modifierWords, word.toList.all isWord = true := by decide
  exact List.all_eq_true.mp (hwords word hword)

theorem beginsCode_word (hword : word ∈ modifierWords) (text : Line) : BeginsCode (word.toList ++ text) := by
  have hwords : ∀ word ∈ modifierWords, word.toList ≠ [] := by decide
  exact beginsCode_append (hwords word hword)
    (fun c hc ↦ isBlank_eq_false_of_isWord (isWord_of_mem_modifierWords hword c hc)) text

theorem isBlank_of_mem_head?_gap (hgap : IsGap gap) (text : Line) : ∀ c ∈ (gap ++ text).head?, isBlank c = true := by
  obtain ⟨b, gap, rfl⟩ := List.exists_cons_of_ne_nil hgap.1
  intro c hc
  obtain rfl := Option.some.inj hc
  exact isBlank_of_mem hgap.2 b List.mem_cons_self

theorem trimStart_gap (hgap : IsGap gap) (hcode : BeginsCode text) : trimStart (gap ++ text) = text := by
  rw [trimStart_append hgap.2, trimStart_of_beginsCode hcode]

theorem isWord_of_mem_head?_gap (hgap : IsGap gap) (text : Line) : ∀ c ∈ (gap ++ text).head?, isWord c = false :=
  fun c hc ↦ isWord_eq_false_of_isBlank (isBlank_of_mem_head?_gap hgap text c hc)

theorem word_eq_of_append_eq {gap' text' : Line} (hword : word ∈ modifierWords) (hother : other ∈ modifierWords)
    (hgap : IsGap gap) (hgap' : IsGap gap') (h : word.toList ++ (gap ++ text) = other.toList ++ (gap' ++ text')) :
    word = other ∧ gap ++ text = gap' ++ text' := by
  obtain ⟨hchars, hbehind⟩ := run_eq_of_append_eq (isWord_of_mem_modifierWords hword)
    (isWord_of_mem_head?_gap hgap text)
    (isWord_of_mem_modifierWords hother) (isWord_of_mem_head?_gap hgap' text') h
  exact ⟨String.toList_inj.mp hchars, hbehind⟩

theorem keyword?_of_ne (hword : word ∈ modifierWords) (hother : other ∈ modifierWords) (hne : other ≠ word)
    (hgap : IsGap gap) (text : Line) : keyword? other (word.toList ++ (gap ++ text)) = none := by
  rw [Option.eq_none_iff_forall_ne_some]
  intro behind hbehind
  obtain ⟨gap', hgap', htext⟩ := exists_gap_of_keyword? hbehind
  exact hne (word_eq_of_append_eq hword hother hgap hgap' htext).1.symm

theorem findSome?_keyword? {words : List String} (hwords : ∀ other ∈ words, other ∈ modifierWords)
    (hword : word ∈ modifierWords) (hgap : IsGap gap) (hcode : BeginsCode text) :
    words.findSome? (keyword? · (word.toList ++ (gap ++ text))) = if word ∈ words then some text else none := by
  induction words with
  | nil => rfl
  | cons other words ih =>
    obtain ⟨hother, hwords⟩ := List.forall_mem_cons.mp hwords
    rw [List.findSome?_cons]
    by_cases heq : other = word
    · rw [heq, keyword?_append word hgap hcode]
      simp
    · rw [keyword?_of_ne hword hother heq hgap, ih hwords]
      simp [Ne.symm heq]

theorem beginsCode_spaced (h : ∀ p ∈ words, p.1 ∈ modifierWords) (hcode : BeginsCode text) :
    BeginsCode (spaced words ++ text) := by
  cases words with
  | nil => exact hcode
  | cons p words =>
    rw [spaced_cons]
    exact beginsCode_word (h p List.mem_cons_self) _

theorem length_le_length_spaced (h : ∀ p ∈ words, p.1 ∈ modifierWords) (text : Line) :
    words.length ≤ (spaced words ++ text).length := by
  have hwords : ∀ word ∈ modifierWords, 0 < word.toList.length := by decide
  induction words with
  | nil => exact Nat.zero_le _
  | cons p words ih =>
    obtain ⟨hp, h⟩ := List.forall_mem_cons.mp h
    have hlength := hwords p.1 hp
    have hrest := ih h
    rw [spaced_cons]
    simp only [List.length_append, List.length_cons] at hrest ⊢
    omega

theorem wordsBeforeStatic_subset : ∀ word ∈ wordsBeforeStatic, word ∈ modifierWords := by decide

theorem wordsAfterStatic_subset : ∀ word ∈ wordsAfterStatic, word ∈ modifierWords := by decide

theorem leadingModifiers_spaced (h : ∀ p ∈ words, p.1 ∈ wordsBeforeStatic ∧ IsGap p.2) (hgap : IsGap gap)
    (hcode : BeginsCode text) (hn : words.length ≤ n) :
    leadingModifiers n (spaced words ++ ("static".toList ++ (gap ++ text))) = "static".toList ++ (gap ++ text) := by
  induction n generalizing words with
  | zero =>
    obtain rfl := List.length_eq_zero_iff.mp (Nat.le_zero.mp hn)
    rfl
  | succ n ih =>
    cases words with
    | nil =>
      have hstatic : "static" ∈ modifierWords := by decide
      have hnone := findSome?_keyword? wordsBeforeStatic_subset hstatic hgap hcode
      rw [if_neg (by decide)] at hnone
      rw [spaced, List.flatMap_nil, List.nil_append, leadingModifiers, ← wordsBeforeStatic, hnone]
    | cons p words =>
      obtain ⟨⟨hp, hgapBehind⟩, h⟩ := List.forall_mem_cons.mp h
      have hstatic : BeginsCode ("static".toList ++ (gap ++ text)) := beginsCode_word (by decide) _
      have hbehind := beginsCode_spaced (fun p hp ↦ wordsBeforeStatic_subset _ (h p hp).1) hstatic
      have hsome := findSome?_keyword? wordsBeforeStatic_subset (wordsBeforeStatic_subset _ hp) hgapBehind hbehind
      rw [if_pos hp] at hsome
      rw [spaced_cons, leadingModifiers, ← wordsBeforeStatic, hsome]
      exact ih h (Nat.le_of_succ_le_succ hn)

theorem findSome?_modifierRests_spaced {found : Line × Line × Line}
    (h : ∀ p ∈ words, p.1 ∈ wordsAfterStatic ∧ IsGap p.2) (hcode : BeginsCode text)
    (hfound : ∀ n, (modifierRests n text).findSome? declaration? = some found) (hn : words.length ≤ n) :
    (modifierRests n (spaced words ++ text)).findSome? declaration? = some found := by
  induction n generalizing words with
  | zero =>
    obtain rfl := List.length_eq_zero_iff.mp (Nat.le_zero.mp hn)
    exact hfound 0
  | succ n ih =>
    cases words with
    | nil => exact hfound (n + 1)
    | cons p words =>
      obtain ⟨⟨hp, hgapBehind⟩, h⟩ := List.forall_mem_cons.mp h
      have hbehind := beginsCode_spaced (fun p hp ↦ wordsAfterStatic_subset _ (h p hp).1) hcode
      have hsome := findSome?_keyword? wordsAfterStatic_subset (wordsAfterStatic_subset _ hp) hgapBehind hbehind
      rw [if_pos hp] at hsome
      rw [spaced_cons, modifierRests, ← wordsAfterStatic, hsome]
      dsimp only
      rw [List.findSome?_append, ih h (Nat.le_of_succ_le_succ hn), Option.some_or]

theorem spaced_injective (h : ∀ p ∈ words, p.1 ∈ modifierWords ∧ IsGap p.2)
    (h' : ∀ p ∈ words', p.1 ∈ modifierWords ∧ IsGap p.2) (heq : spaced words = spaced words') : words = words' := by
  have hne (p : String × Line) (words : List (String × Line)) (hp : IsGap p.2) : spaced (p :: words) ≠ [] := by
    simp [spaced, hp.1]
  induction words generalizing words' with
  | nil =>
    cases words' with
    | nil => rfl
    | cons p words' => exact absurd heq.symm (hne p words' (h' p List.mem_cons_self).2)
  | cons p words ih =>
    cases words' with
    | nil => exact absurd heq (hne p words (h p List.mem_cons_self).2)
    | cons p' words' =>
      obtain ⟨⟨hp, hgap⟩, h⟩ := List.forall_mem_cons.mp h
      obtain ⟨⟨hp', hgap'⟩, h'⟩ := List.forall_mem_cons.mp h'
      have hcode {words : List (String × Line)} (h : ∀ p ∈ words, p.1 ∈ modifierWords ∧ IsGap p.2) :
          BeginsCode (spaced words ++ []) := beginsCode_spaced (fun p hp ↦ (h p hp).1) (by simp [BeginsCode])
      rw [← List.append_nil (spaced (p :: _)), ← List.append_nil (spaced (p' :: _)), spaced_cons, spaced_cons] at heq
      obtain ⟨hword, hbehind⟩ := word_eq_of_append_eq hp hp' hgap hgap' heq
      obtain ⟨hgaps, hwords⟩ := run_eq_of_append_eq (isBlank_of_mem hgap.2) (hcode h) (isBlank_of_mem hgap'.2)
        (hcode h')
        hbehind
      rw [List.append_nil, List.append_nil] at hwords
      rw [ih h h' hwords, Prod.ext hword hgaps]

end

section

variable {afterName : Line} (hname : ∀ c ∈ name, isWord c = true) (hafter : isBlankLine afterName = true)

include hname in
theorem beginsCode_name (hne : name ≠ []) (text : Line) : BeginsCode (name ++ text) :=
  beginsCode_append hne (fun c hc ↦ isBlank_eq_false_of_isWord (hname c hc)) text

include hname hafter in
theorem endsType_name (hgap : IsGap gap) (hne : name ≠ []) (rest : Line) :
    EndsType (gap ++ (name ++ (afterName ++ '(' :: rest))) where
  other := fun c hc ↦ isTypeChar_eq_false_of_isBlank (isBlank_of_mem_head?_gap hgap _ c hc)
  mark := by
    obtain ⟨c, name, rfl⟩ := List.exists_cons_of_ne_nil hne
    rw [trimStart_gap hgap (beginsCode_name hname hne _)]
    intro d hd
    obtain rfl := Option.some.inj hd
    have hc := hname c List.mem_cons_self
    constructor <;> rintro rfl <;> exact absurd hc (by decide)
  args := by
    rw [typeArgumentRests_append (by decide) (isBlank_of_mem hgap.2), typeArgumentRests_append (by decide) hname,
      typeArgumentRests_append (by decide) (isBlank_of_mem hafter), typeArgumentRests, if_pos (.inl rfl)]

include hname hafter in
theorem declaredName?_append (hgap : IsGap gap) (hne : name ≠ []) (rest : Line) :
    declaredName? (gap ++ (name ++ (afterName ++ '(' :: rest))) = some (name, rest) := by
  have hrun : run? isWord (name ++ (afterName ++ '(' :: rest)) = some (name, afterName ++ '(' :: rest) :=
    run?_eq_some_iff.mpr ⟨rfl, hne, hname,
      head?_blanks_cons hafter (fun c ↦ isWord_eq_false_of_isBlank) (by decide) rest⟩
  have hparen : openParen? (afterName ++ '(' :: rest) = some rest := by
    rw [openParen?, trimStart_blanks_cons hafter (by decide)]
    rfl
  rw [declaredName?, blanks?_append hgap (beginsCode_name hname hne _), Option.bind_some, hrun]
  dsimp only [Option.bind_some]
  rw [hparen, Option.map_some]

include hname hafter in
theorem declaration?_written {t : TypeText} (ht : t.Tight) (hgap : IsGap gap) (hne : name ≠ []) (rest : Line) :
    declaration? (t.written ++ (gap ++ (name ++ (afterName ++ '(' :: rest)))) = some (t.written, name, rest) := by
  obtain ⟨others, hrests⟩ := t.typeRests_append ht (endsType_name hname hafter hgap hne rest)
  rw [declaration?, hrests, List.findSome?_cons, declaredName?_append hname hafter hgap hne, Option.map_some,
    upTo_append]

theorem declaration?_of_head (h : ∀ c ∈ text.head?, isTypeChar c = false) : declaration? text = none := by
  have hnone : run? isTypeChar text = none := by
    cases text with
    | nil => rfl
    | cons c text => rw [run?, List.takeWhile_cons_of_neg (by simp [h c rfl])]
  rw [declaration?, typeRests, hnone]
  rfl

include hname hafter in
theorem declaration?_call (rest : Line) : declaration? (name ++ (afterName ++ '(' :: rest)) = none := by
  have hhead : ∀ c ∈ (afterName ++ '(' :: rest).head?, isTypeChar c = false :=
    head?_blanks_cons hafter (fun c ↦ isTypeChar_eq_false_of_isBlank) (by decide) rest
  by_cases hne : name = []
  · rw [hne]
    exact declaration?_of_head hhead
  have hrun : run? isTypeChar (name ++ (afterName ++ '(' :: rest)) = some (name, afterName ++ '(' :: rest) :=
    run?_eq_some_iff.mpr ⟨rfl, hne, fun c hc ↦ isTypeChar_of_isWord (hname c hc), hhead⟩
  have htrim : trimStart (afterName ++ '(' :: rest) = '(' :: rest := trimStart_blanks_cons hafter (by decide) rest
  have hmark : ∀ c ∈ (trimStart (afterName ++ '(' :: rest)).head?, c ≠ '[' := by
    rw [htrim]
    simp
  have hskip (n : Nat) : skipArrayBrackets n (afterName ++ '(' :: rest) = afterName ++ '(' :: rest :=
    skipArrayBrackets_append (List.forall_mem_nil _) (List.forall_mem_nil _) hmark (Nat.zero_le n)
  have hname? : declaredName? (afterName ++ '(' :: rest) = none := by
    rw [declaredName?]
    cases afterName with
    | nil => rfl
    | cons b afterName =>
      have hb : IsGap (b :: afterName) := ⟨List.cons_ne_nil _ _, hafter⟩
      rw [blanks?_append hb (by intro c hc; obtain rfl := Option.some.inj hc; decide)]
      rfl
  unfold declaration? typeRests
  rw [hrun]
  simp [htrim, after?, hskip, hname?]

theorem beginsCode_of_keyword? (h : keyword? word text = some rest) : BeginsCode rest := by
  obtain ⟨after, -, hblanks⟩ := Option.bind_eq_some_iff.mp h
  cases after with
  | nil => cases hblanks
  | cons c after =>
    simp only [blanks?] at hblanks
    split at hblanks
    · obtain rfl := Option.some.inj hblanks
      intro d hd
      have hhead := List.head?_dropWhile_not isBlank after
      rw [← trimStart, Option.mem_def.mp hd] at hhead
      exact hhead
    · cases hblanks

/-- Where no type begins, nothing is declared behind any modifiers. -/
theorem declaration?_of_mem_modifierRests (h : ∀ c ∈ text.head?, isTypeChar c = false) :
    ∀ behind ∈ modifierRests n text, declaration? behind = none := by
  have hself : modifierRests n text = [text] := by
    cases n with
    | zero => rfl
    | succ n =>
      have hnone : wordsAfterStatic.findSome? (keyword? · text) = none := by
        rw [List.findSome?_eq_none_iff]
        intro word hword
        rw [Option.eq_none_iff_forall_ne_some]
        intro behind hbehind
        obtain ⟨gap, -, rfl⟩ := exists_gap_of_keyword? hbehind
        have hwords : ∀ word ∈ wordsAfterStatic, word.toList.head?.map isTypeChar = some true := by decide
        obtain ⟨c, hc, htype⟩ := Option.map_eq_some_iff.mp (hwords word hword)
        exact Bool.false_ne_true ((h c (List.mem_head?_append_of_mem_head? hc)).symm.trans htype)
      rw [modifierRests, ← wordsAfterStatic, hnone]
  rw [hself]
  simpa using declaration?_of_head h

include hname hafter in
theorem declaration?_of_mem_modifierRests_call :
    ∀ behind ∈ modifierRests n (name ++ (afterName ++ '(' :: rest)), declaration? behind = none := by
  have hself : ∀ behind ∈ [name ++ (afterName ++ '(' :: rest)], declaration? behind = none := by
    simpa using declaration?_call hname hafter rest
  cases n with
  | zero => exact hself
  | succ n =>
    rw [modifierRests, ← wordsAfterStatic]
    split
    · next behind hbehind =>
      -- The name is the modifier, and behind it the parenthesis is left.
      obtain ⟨word, hword, hkeyword⟩ := List.exists_of_findSome?_eq_some hbehind
      obtain ⟨gap, hgap, htext⟩ := exists_gap_of_keyword? hkeyword
      obtain ⟨-, hparen⟩ := run_eq_of_append_eq hname
        (head?_blanks_cons hafter (fun c ↦ isWord_eq_false_of_isBlank) (by decide) rest)
        (isWord_of_mem_modifierWords (wordsAfterStatic_subset word hword)) (isWord_of_mem_head?_gap hgap behind) htext
      have hbehind : '(' :: rest = behind := by
        rw [← trimStart_gap hgap (beginsCode_of_keyword? hkeyword), ← hparen, trimStart_blanks_cons hafter (by decide)]
      intro other hother
      rcases List.mem_append.mp hother with hother | hother
      · exact declaration?_of_mem_modifierRests (by simp [← hbehind]; decide) other hother
      · exact hself other hother
    · exact hself

include hname hafter in
theorem TypeText.declaration?_of_mem_behindName (t : TypeText) (hgap : IsGap gap) (hne : name ≠ []) :
    ∀ behind ∈ modifierRests n (trimStart (t.behindName ++ (gap ++ (name ++ (afterName ++ '(' :: rest))))),
      declaration? behind = none := by
  rw [behindName, List.append_assoc]
  cases hargs : t.args with
  | some args =>
    rw [argsText, List.append_assoc, List.cons_append, trimStart_blanks_cons (t.args_plain args hargs).1 (by decide)]
    exact declaration?_of_mem_modifierRests (by simp; decide)
  | none =>
    rw [argsText, List.nil_append]
    cases hbrackets : t.brackets with
    | cons b brackets =>
      have hblank := (t.brackets_blank b (hbrackets ▸ List.mem_cons_self)).1
      rw [bracketsText_cons, trimStart_blanks_cons hblank (by decide)]
      exact declaration?_of_mem_modifierRests (by simp; decide)
    | nil =>
      rw [bracketsText, List.flatMap_nil, List.nil_append, trimStart_gap hgap (beginsCode_name hname hne _)]
      exact declaration?_of_mem_modifierRests_call hname hafter

include hname hafter in
/-- A type is read as a whole even if it is called like a modifier. -/
theorem findSome?_modifierRests_written {t : TypeText} (ht : t.Tight) (hgap : IsGap gap) (hne : name ≠ []) (rest : Line)
    (n : Nat) : (modifierRests n (t.written ++ (gap ++ (name ++ (afterName ++ '(' :: rest))))).findSome? declaration? =
      some (t.written, name, rest) := by
  have hself := declaration?_written hname hafter ht hgap hne rest
  have hends := endsType_name hname hafter hgap hne rest
  cases n with
  | zero => rw [modifierRests, List.findSome?_singleton, hself]
  | succ n =>
    rw [modifierRests, ← wordsAfterStatic]
    split
    · next behind hbehind =>
      obtain ⟨word, hword, hkeyword⟩ := List.exists_of_findSome?_eq_some hbehind
      obtain ⟨wordGap, hwordGap, htext⟩ := exists_gap_of_keyword? hkeyword
      -- The modifier is the type's name, so what is left begins inside the type or with the method's name.
      have hchars := isWord_of_mem_modifierWords (wordsAfterStatic_subset word hword)
      rw [TypeText.written, List.append_assoc] at htext
      obtain ⟨-, hbehindName⟩ := run_eq_of_append_eq t.name_chars (t.head?_behindName hends)
        (fun c hc ↦ isTypeChar_of_isWord (hchars c hc))
        (fun c hc ↦ isTypeChar_eq_false_of_isBlank (isBlank_of_mem_head?_gap hwordGap behind c hc)) htext
      have hnone : ∀ other ∈ modifierRests n behind, declaration? other = none := by
        rw [← trimStart_gap hwordGap (beginsCode_of_keyword? hkeyword), ← hbehindName]
        exact t.declaration?_of_mem_behindName hname hafter hgap hne
      rw [List.findSome?_append, List.findSome?_eq_none_iff.mpr hnone, Option.none_or, List.findSome?_singleton, hself]
    · rw [List.findSome?_singleton, hself]

end

section

variable {line type : Line} {h : Heading}

theorem exists_spaced_leadingModifiers (n : Nat) (text : Line) : ∃ words : List (String × Line),
    (∀ p ∈ words, p.1 ∈ wordsBeforeStatic ∧ IsGap p.2) ∧ text = spaced words ++ leadingModifiers n text := by
  induction n generalizing text with
  | zero => exact ⟨[], List.forall_mem_nil _, rfl⟩
  | succ n ih =>
    rw [leadingModifiers, ← wordsBeforeStatic]
    split
    · next behind hbehind =>
      obtain ⟨word, hword, hkeyword⟩ := List.exists_of_findSome?_eq_some hbehind
      obtain ⟨gap, hgap, rfl⟩ := exists_gap_of_keyword? hkeyword
      obtain ⟨words, hwords, htext⟩ := ih behind
      exact ⟨(word, gap) :: words, List.forall_mem_cons.mpr ⟨⟨hword, hgap⟩, hwords⟩, by rw [spaced_cons, ← htext]⟩
    · exact ⟨[], List.forall_mem_nil _, rfl⟩

theorem exists_spaced_of_mem_modifierRests (hrest : rest ∈ modifierRests n text) : ∃ words : List (String × Line),
    (∀ p ∈ words, p.1 ∈ wordsAfterStatic ∧ IsGap p.2) ∧ text = spaced words ++ rest := by
  have hnone (text : Line) (hrest : rest ∈ [text]) : ∃ words : List (String × Line),
      (∀ p ∈ words, p.1 ∈ wordsAfterStatic ∧ IsGap p.2) ∧ text = spaced words ++ rest :=
    ⟨[], List.forall_mem_nil _, (List.mem_singleton.mp hrest).symm⟩
  induction n generalizing text with
  | zero => exact hnone _ hrest
  | succ n ih =>
    rw [modifierRests, ← wordsAfterStatic] at hrest
    split at hrest
    · next behind hbehind =>
      rcases List.mem_append.mp hrest with hmem | hmem
      · obtain ⟨word, hword, hkeyword⟩ := List.exists_of_findSome?_eq_some hbehind
        obtain ⟨gap, hgap, rfl⟩ := exists_gap_of_keyword? hkeyword
        obtain ⟨words, hwords, htext⟩ := ih hmem
        exact ⟨(word, gap) :: words, List.forall_mem_cons.mpr ⟨⟨hword, hgap⟩, hwords⟩, by rw [spaced_cons, ← htext]⟩
      · exact hnone _ hmem
    · exact hnone _ hrest

theorem exists_parts_of_declaredName? (hname : declaredName? text = some (name, rest)) : ∃ gap afterName, IsGap gap ∧
    name ≠ [] ∧ (∀ c ∈ name, isWord c = true) ∧ isBlankLine afterName = true ∧
    text = gap ++ (name ++ (afterName ++ '(' :: rest)) := by
  obtain ⟨named, hblanks, hrun⟩ := Option.bind_eq_some_iff.mp hname
  obtain ⟨⟨word, behind⟩, hword, hparen⟩ := Option.bind_eq_some_iff.mp hrun
  obtain ⟨params, hparams, heq⟩ := Option.map_eq_some_iff.mp hparen
  obtain ⟨rfl, rfl⟩ := Prod.mk.inj heq
  obtain ⟨gap, hgap, rfl⟩ := exists_gap_of_blanks? hblanks
  obtain ⟨rfl, hne, hchars, -⟩ := run?_eq_some_iff.mp hword
  obtain ⟨afterName, hafter, rfl⟩ := exists_blanks_of_openParen? hparams
  exact ⟨gap, afterName, hgap, hne, hchars, hafter, rfl⟩

theorem exists_parts_of_declaration? (hdecl : declaration? text = some (type, name, rest)) : ∃ t : TypeText, t.Tight ∧
    t.written = type ∧ ∃ gap afterName, IsGap gap ∧ name ≠ [] ∧ (∀ c ∈ name, isWord c = true) ∧
      isBlankLine afterName = true ∧ text = t.written ++ (gap ++ (name ++ (afterName ++ '(' :: rest))) := by
  obtain ⟨behind, hbehind, hnamed⟩ := List.exists_of_findSome?_eq_some hdecl
  obtain ⟨⟨word, params⟩, hname, heq⟩ := Option.map_eq_some_iff.mp hnamed
  simp only [Prod.mk.injEq] at heq
  obtain ⟨rfl, rfl, rfl⟩ := heq
  obtain ⟨t, ht, rfl⟩ := exists_typeText_of_mem_typeRests hbehind
  obtain ⟨gap, afterName, hgap, hne, hchars, hafter, rfl⟩ := exists_parts_of_declaredName? hname
  exact ⟨t, ht, (upTo_append _ _).symm, gap, afterName, hgap, hne, hchars, hafter, rfl⟩

end

namespace MethodLine

variable {m m' : MethodLine} {line : Line} {h : Heading}

theorem isGap_of_mem (hparams : m.params = none) : ∀ p ∈ m.modifiers, IsGap p.2 := by
  intro p hp
  refine ⟨?_, (m.modifiers_known p hp).2⟩
  obtain ⟨others, last, hmodifiers⟩ := (List.eq_nil_or_concat m.modifiers).resolve_left (List.ne_nil_of_mem hp)
  rw [List.concat_eq_append] at hmodifiers
  rw [hmodifiers, List.mem_append, List.mem_singleton] at hp
  rcases hp with hp | rfl
  · exact m.modifiers_apart p (by simpa [hmodifiers] using hp)
  · exact m.last_apart hparams p (by simp [hmodifiers])

def declared (m : MethodLine) : Line := m.type.written ++ (m.gap ++ (m.name ++ (m.afterName ++ '(' :: m.rest)))

theorem line_eq {front back : List (String × Line)} {gap : Line} (hparams : m.params = none)
    (hmodifiers : m.modifiers = front ++ ("static", gap) :: back) :
    m.line = m.indent ++ (spaced front ++ ("static".toList ++ (gap ++ (spaced back ++ m.declared)))) := by
  simp [line, head, modifiersText, hmodifiers, hparams, spaced, paramsText, declared]

theorem Plain.methodHeading?_line (hm : m.Plain) : methodHeading? m.line = some m.heading := by
  obtain ⟨front, gap, back, hmodifiers, hfront, hback⟩ := hm.order
  have hgaps := m.isGap_of_mem hm.params
  rw [hmodifiers, List.forall_mem_append, List.forall_mem_cons] at hgaps
  obtain ⟨hfrontGaps, hgap, hbackGaps⟩ := hgaps
  have hfrontKnown : ∀ p ∈ front, p.1 ∈ modifierWords := fun p hp ↦ wordsBeforeStatic_subset _ (hfront p hp)
  have hbackKnown : ∀ p ∈ back, p.1 ∈ modifierWords := fun p hp ↦ wordsAfterStatic_subset _ (hback p hp)
  have hdeclared : BeginsCode m.declared := m.type.beginsCode_written _
  have hbehind : BeginsCode (spaced back ++ m.declared) := beginsCode_spaced hbackKnown hdeclared
  have hstatic : BeginsCode ("static".toList ++ (gap ++ (spaced back ++ m.declared))) := beginsCode_word (by decide) _
  have htext : trimStart m.line = spaced front ++ ("static".toList ++ (gap ++ (spaced back ++ m.declared))) := by
    rw [line_eq hm.params hmodifiers, trimStart_append m.indent_blank,
      trimStart_of_beginsCode (beginsCode_spaced hfrontKnown hstatic)]
  have hleading : leadingModifiers (trimStart m.line).length (trimStart m.line) =
      "static".toList ++ (gap ++ (spaced back ++ m.declared)) := by
    rw [htext]
    exact leadingModifiers_spaced (fun p hp ↦ ⟨hfront p hp, hfrontGaps p hp⟩) hgap hbehind
      (length_le_length_spaced hfrontKnown _)
  have hfound : (modifierRests (spaced back ++ m.declared).length (spaced back ++ m.declared)).findSome? declaration? =
      some (m.type.written, m.name, m.rest) :=
    findSome?_modifierRests_spaced (fun p hp ↦ ⟨hback p hp, hbackGaps p hp⟩) hdeclared
      (findSome?_modifierRests_written m.name_word m.afterName_blank hm.tight ⟨hm.apart, m.gap_blank⟩ m.name_ne_nil
        m.rest)
      (length_le_length_spaced hbackKnown _)
  rw [methodHeading?, hleading, keyword?_append "static" hgap hbehind, Option.bind_some, hfound, Option.map_some]
  dsimp only
  rw [line, upTo_append]
  rfl

theorem Plain.read?_line (hm : m.Plain) : functionStart.read? m.line = some m.heading := by
  have hname : m.heading.name ≠ some "main".toList := fun h ↦ m.name_ne_main (Option.some.inj h)
  exact Option.filter_eq_some_iff.mpr ⟨hm.methodHeading?_line, decide_eq_true hname⟩

/-- Whatever is read as a method's heading begins a method in a plain way. -/
theorem exists_plain_of_functionStart (hread : functionStart.read? line = some h) :
    ∃ m : MethodLine, m.Plain ∧ m.line = line ∧ m.heading = h := by
  obtain ⟨hheading, hmain⟩ := Option.filter_eq_some_iff.mp hread
  obtain ⟨behind, hstatic, hdeclared⟩ := Option.bind_eq_some_iff.mp hheading
  obtain ⟨⟨type, name, rest⟩, hfound, rfl⟩ := Option.map_eq_some_iff.mp hdeclared
  obtain ⟨front, hfront, hleading⟩ := exists_spaced_leadingModifiers (trimStart line).length (trimStart line)
  obtain ⟨gap, hgap, hbehindStatic⟩ := exists_gap_of_keyword? hstatic
  obtain ⟨declared, hrests, hdeclaration⟩ := List.exists_of_findSome?_eq_some hfound
  obtain ⟨back, hback, rfl⟩ := exists_spaced_of_mem_modifierRests hrests
  obtain ⟨t, ht, rfl, nameGap, afterName, hnameGap, hne, hchars, hafter, rfl⟩ :=
    exists_parts_of_declaration? hdeclaration
  have hknown : ∀ p ∈ front ++ ("static", gap) :: back, p.1 ∈ modifierWords ∧ IsGap p.2 := by
    rw [List.forall_mem_append, List.forall_mem_cons]
    exact ⟨fun p hp ↦ ⟨wordsBeforeStatic_subset _ (hfront p hp).1, (hfront p hp).2⟩,
      ⟨show "static" ∈ modifierWords by decide, hgap⟩,
      fun p hp ↦ ⟨wordsAfterStatic_subset _ (hback p hp).1, (hback p hp).2⟩⟩
  let m : MethodLine :=
    { indent := indentation line, modifiers := front ++ ("static", gap) :: back, params := none, type := t,
      gap := nameGap
      name := name, afterName := afterName, rest := rest
      indent_blank := List.all_takeWhile
      modifiers_known := fun p hp ↦ ⟨(hknown p hp).1, (hknown p hp).2.2⟩
      modifiers_apart := fun p hp ↦ (hknown p (List.mem_of_mem_dropLast hp)).2.1
      last_apart := fun _ p hp ↦ (hknown p (List.mem_of_mem_getLast? hp)).2.1
      static_mem := ⟨("static", gap), by simp, rfl⟩
      params_blank := by simp
      gap_blank := hnameGap.2
      gap_apart := fun h ↦ absurd h hnameGap.1
      name_ne_nil := hne
      name_word := hchars
      name_ne_main := by simpa using hmain
      afterName_blank := hafter }
  have hline : m.line = line := by
    rw [line_eq rfl rfl, declared, ← hbehindStatic, ← hleading, indentation_append_trimStart]
  refine ⟨m, ⟨⟨front, gap, back, rfl, fun p hp ↦ (hfront p hp).1, fun p hp ↦ (hback p hp).1⟩, rfl, hnameGap.1, ht⟩,
    hline, ?_⟩
  have hhead : upTo line rest = m.head := by rw [← hline, MethodLine.line, upTo_append]
  dsimp only
  rw [hhead]
  rfl

theorem blanks_eq_of_append_eq {front front' blanks blanks' : Line} (hfront : ∀ c ∈ front.getLast?, isBlank c = false)
    (hblanks : isBlankLine blanks = true) (hfront' : ∀ c ∈ front'.getLast?, isBlank c = false)
    (hblanks' : isBlankLine blanks' = true) (heq : front ++ blanks = front' ++ blanks') :
    front = front' ∧ blanks = blanks' := by
  have hreverse := congrArg List.reverse heq
  rw [List.reverse_append, List.reverse_append] at hreverse
  obtain ⟨hblanks, hfront⟩ := run_eq_of_append_eq (p := isBlank) (by simpa using isBlank_of_mem hblanks)
    (by simpa using hfront) (by simpa using isBlank_of_mem hblanks') (by simpa using hfront') hreverse
  exact ⟨List.reverse_inj.mp hfront, List.reverse_inj.mp hblanks⟩

theorem angle_not_mem_spaced {words : List (String × Line)}
    (hwords : ∀ p ∈ words, p.1 ∈ modifierWords ∧ isBlankLine p.2 = true) : '<' ∉ spaced words := by
  intro hmem
  obtain ⟨p, hp, hmem⟩ := List.mem_flatMap.mp hmem
  obtain ⟨hword, hblank⟩ := hwords p hp
  rcases List.mem_append.mp hmem with hmem | hmem
  · exact absurd (isWord_of_mem_modifierWords hword _ hmem) (by decide)
  · exact absurd (isBlank_of_mem hblank _ hmem) (by decide)

theorem modifiers_eq_of_modifiersText_eq (hparams : m'.params = none) (htext : m.modifiersText = m'.modifiersText) :
    m.modifiers = m'.modifiers ∧ m.params = none := by
  -- Nothing else than type parameters has an angle bracket in front of the type.
  have hnone : m.params = none := by
    cases hparams' : m.params with
    | none => rfl
    | some params =>
      have hmem : '<' ∈ m'.modifiersText := by
        rw [← htext, modifiersText, hparams']
        simp [paramsText]
      rw [modifiersText, hparams, paramsText, List.append_nil, List.mem_append] at hmem
      rcases hmem with hmem | hmem
      · exact absurd (isBlank_of_mem m'.indent_blank _ hmem) (by decide)
      · exact absurd hmem (angle_not_mem_spaced m'.modifiers_known)
  have hcode (m : MethodLine) : BeginsCode (spaced m.modifiers ++ []) :=
    beginsCode_spaced (fun p hp ↦ (m.modifiers_known p hp).1) (by simp [BeginsCode])
  have hknown {m : MethodLine} (hparams : m.params = none) : ∀ p ∈ m.modifiers, p.1 ∈ modifierWords ∧ IsGap p.2 :=
    fun p hp ↦ ⟨(m.modifiers_known p hp).1, m.isGap_of_mem hparams p hp⟩
  rw [modifiersText, modifiersText, hnone, hparams, paramsText] at htext
  obtain ⟨-, hspaced⟩ := run_eq_of_append_eq (isBlank_of_mem m.indent_blank) (hcode m) (isBlank_of_mem m'.indent_blank)
    (hcode m') htext
  rw [List.append_nil, List.append_nil] at hspaced
  exact ⟨spaced_injective (hknown hnone) (hknown hparams) hspaced, hnone⟩

theorem parts_eq_of_heading_eq (heq : m.heading = m'.heading) :
    m.modifiersText = m'.modifiersText ∧ m.type.written = m'.type.written ∧ m.gap = m'.gap := by
  obtain ⟨hhead, hname, htype⟩ := Heading.mk.inj heq
  have hname := Option.some.inj hname
  have htype := Option.some.inj htype
  have hends (m : MethodLine) : ∀ c ∈ (m.modifiersText ++ m.type.written).getLast?, isBlank c = false := by
    obtain ⟨front, c, hwritten, hc⟩ := m.type.exists_written_eq_concat
    simp [hwritten, hc]
  have hnameEnds (m : MethodLine) :
      ∀ c ∈ (m.modifiersText ++ m.type.written ++ m.gap ++ m.name).getLast?, isBlank c = false := by
    obtain ⟨front, c, hname⟩ := (List.eq_nil_or_concat m.name).resolve_left m.name_ne_nil
    have hc : isBlank c = false := isBlank_eq_false_of_isWord (m.name_word c (by simp [hname]))
    simp [hname, hc]
  have hheadEq (m : MethodLine) :
      m.head = m.modifiersText ++ m.type.written ++ m.gap ++ m.name ++ m.afterName ++ ['('] := by
    simp only [head, List.append_assoc]
  -- Names and types do not end with blanks, so the blanks behind them can be taken off one after the other.
  rw [hheadEq m, hheadEq m'] at hhead
  obtain ⟨hnamed, -⟩ := blanks_eq_of_append_eq (hnameEnds m) m.afterName_blank (hnameEnds m') m'.afterName_blank
    (List.append_cancel_right hhead)
  rw [hname] at hnamed
  obtain ⟨htyped, hgap⟩ := blanks_eq_of_append_eq (hends m) m.gap_blank (hends m') m'.gap_blank
    (List.append_cancel_right hnamed)
  rw [htype] at htyped
  exact ⟨List.append_cancel_right htyped, htype, hgap⟩

theorem Plain.of_heading_eq (hm : m'.Plain) (heq : m.heading = m'.heading) : m.Plain := by
  obtain ⟨htext, htype, hgap⟩ := parts_eq_of_heading_eq heq
  obtain ⟨hmodifiers, hparams⟩ := modifiers_eq_of_modifiersText_eq hm.params htext
  exact ⟨hmodifiers ▸ hm.order, hparams, hgap ▸ hm.apart, hm.tight.of_written_eq htype⟩

/-- Exactly the plain lines are read with their own name and type. -/
theorem read?_line_iff : functionStart.read? m.line = some m.heading ↔ m.Plain := by
  refine ⟨fun hread ↦ ?_, Plain.read?_line⟩
  obtain ⟨m', hm', -, heq⟩ := exists_plain_of_functionStart hread
  exact hm'.of_heading_eq heq.symm

end MethodLine

end AnswerKey.Java
