import AnswerKey.Dialect.Grammars
import AnswerKey.Proofs.Code.Splitting

namespace AnswerKey

open Text Code

/-- How a dialect makes one expression of the arguments that an output call prints. -/
structure Joining where
  /-- What an argument begins with that stands for several. -/
  spread : Line
  printed : Line → List Line
  /-- What stands in front of joined arguments. -/
  opening : Line → Line
  closing : Line

/-- The expression is a single argument, which stands for itself alone, and carries all that is printed: the empty text
where that is nothing, a lone plain argument as it is, and else a list that is cut into the printed arguments. -/
structure Joining.Collects (j : Joining) (args value : Line) : Prop where
  single : splitArguments value = [value]
  nonempty : value ≠ []
  unspread : startsWith value j.spread = false
  empty : j.printed args = [] → value = "''".toList
  lone : ∀ arg, j.printed args = [arg] → startsWith arg j.spread = false → value = arg
  joined : ∀ first rest, j.printed args = first :: rest → rest ≠ [] ∨ startsWith first j.spread = true →
    ∃ elements, value = j.opening args ++ (elements ++ j.closing) ∧ splitArguments elements = j.printed args

/-- The ways in which an expression is made of what is printed. -/
inductive Joining.Makes (j : Joining) (args : Line) : Line → Prop
  | nothing (h : j.printed args = []) : Makes j args "''".toList
  | alone {arg : Line} (h : j.printed args = [arg]) (hplain : startsWith arg j.spread = false) : Makes j args arg
  | together {first elements : Line} {rest : List Line} (h : j.printed args = first :: rest)
      (hseveral : rest ≠ [] ∨ startsWith first j.spread = true) (helements : splitArguments elements = first :: rest)
      (hvalue : IsArgument (j.opening args ++ (elements ++ j.closing)))
      (hplain : startsWith (j.opening args ++ (elements ++ j.closing)) j.spread = false) :
      Makes j args (j.opening args ++ (elements ++ j.closing))

variable {args arg value : Line} {pieces : List Line} {j : Joining}

theorem isArgument_of_ends {a b : Char} {s : List Char} (h : Undivided 0 .code (a :: (s ++ [b])))
    (ha : isBlank a = false) (hb : isBlank b = false) : IsArgument (a :: (s ++ [b])) := by
  refine ⟨h, ?_, List.cons_ne_nil _ _⟩
  have hstart : trimStart (a :: (s ++ [b])) = a :: (s ++ [b]) := List.dropWhile_cons_of_neg (by simp [ha])
  have hend : trimEnd (a :: (s ++ [b])) = a :: (s ++ [b]) := by
    rw [trimEnd_eq_rdropWhile, ← List.cons_append]
    exact List.rdropWhile_concat_neg _ _ _ (by simp [hb])
  rw [trim, hstart, hend]

theorem isArgument_emptyText : IsArgument "''".toList :=
  isArgument_of_ends (s := []) (by decide) (by decide) (by decide)

theorem Joining.Makes.isArgument (h : j.Makes args value) (hprinted : ∀ arg ∈ j.printed args, IsArgument arg) :
    IsArgument value := by
  cases h with
  | nothing => exact isArgument_emptyText
  | alone h => exact hprinted value (h ▸ List.mem_singleton_self value)
  | together h hseveral helements hvalue => exact hvalue

theorem Joining.Makes.collects (h : j.Makes args value) (hprinted : ∀ arg ∈ j.printed args, IsArgument arg)
    (hempty : startsWith "''".toList j.spread = false) : j.Collects args value := by
  have hvalue := h.isArgument hprinted
  refine ⟨splitArguments_of_isArgument hvalue, hvalue.nonempty, ?_, fun hnone ↦ ?_, fun arg hone hplain ↦ ?_,
    fun first rest hsome hseveral ↦ ?_⟩
  · cases h with
    | nothing => exact hempty
    | alone h hplain => exact hplain
    | together h hseveral helements hvalue hplain => exact hplain
  · cases h with
    | nothing => rfl
    | alone h => rw [h] at hnone; cases hnone
    | together h => rw [h] at hnone; cases hnone
  · cases h with
    | nothing h => rw [h] at hone; cases hone
    | alone h => rw [h] at hone; exact List.singleton_inj.mp hone
    | together h hseveral =>
      rw [h] at hone
      obtain ⟨rfl, rfl⟩ := List.cons.inj hone
      exact absurd hseveral (by simp [hplain])
  · cases h with
    | nothing h => rw [h] at hsome; cases hsome
    | alone h hplain =>
      rw [h] at hsome
      obtain ⟨rfl, rfl⟩ := List.cons.inj hsome
      exact absurd hseveral (by simp [hplain])
    | together h hseveral' helements => exact ⟨_, rfl, helements.trans h.symm⟩

namespace JavaScript

def joining : Joining where
  spread := "...".toList
  printed := splitArguments
  opening _ := ['[']
  closing := "].join(' ')".toList

theorem isArgument_joined (h : ∀ arg ∈ pieces, IsArgument arg) :
    IsArgument ('[' :: (join ", ".toList pieces ++ "].join(' ')".toList)) := by
  have hundivided : Undivided 0 .code ('[' :: (join ", ".toList pieces ++ [']']) ++ ".join(' ')".toList) :=
    (undivided_bracketed (nested_join h)).append (by decide)
  have heq : '[' :: (join ", ".toList pieces ++ "].join(' ')".toList) =
      '[' :: ((join ", ".toList pieces ++ "].join(' '".toList) ++ [')']) := by simp
  rw [heq]
  refine isArgument_of_ends ?_ (by decide) (by decide)
  rw [← heq]
  simpa using hundivided

theorem makes_collectedValue (hpieces : ∀ arg ∈ splitArguments args, IsArgument arg) :
    joining.Makes args (collectedValue args) := by
  have htogether {first : Line} {rest : List Line} (h : splitArguments args = first :: rest)
      (hseveral : rest ≠ [] ∨ startsWith first "...".toList = true) :
      joining.Makes args ('[' :: (join ", ".toList (first :: rest) ++ "].join(' ')".toList)) := by
    rw [h] at hpieces
    exact .together (j := joining) h hseveral (splitArguments_join hpieces) (isArgument_joined hpieces) rfl
  unfold collectedValue
  cases h : splitArguments args with
  | nil => exact .nothing h
  | cons first rest =>
    cases rest with
    | nil =>
      dsimp only
      split
      · next hspread => exact htogether h (.inr hspread)
      · next hplain => exact .alone h (by simpa [joining] using hplain)
    | cons second rest => exact htogether h (.inl (List.cons_ne_nil _ _))

end JavaScript

namespace Python

/-- An argument that gives a keyword a value; a second equals sign makes it a comparison. -/
def IsKeyword (arg : Line) : Prop :=
  ∃ name value, arg = name ++ '=' :: value ∧ trim name ∈ printKeywords ∧ value.head? ≠ some '='

theorem equals_not_mem_of_keyword {name : Line} (h : trim name ∈ printKeywords) : '=' ∉ name := by
  intro hmem
  rcases mem_trim_of_mem hmem with hblank | htrim
  · exact absurd hblank (by decide)
  · have hall : ∀ keyword ∈ printKeywords, '=' ∉ keyword := by decide
    exact hall _ h htrim

theorem printKeyword?_eq_some {found : Line × Line} : printKeyword? arg = some found ↔
    ∃ name value, arg = name ++ '=' :: value ∧ trim name ∈ printKeywords ∧ value.head? ≠ some '=' ∧
      found = (trim name, trim value) := by
  have hstarts (value : Line) : startsWith value ['='] = true ↔ value.head? = some '=' := by
    cases value with
    | nil => simp [startsWith, after?]
    | cons c value =>
      by_cases hc : c = '='
      · simp [startsWith, after?, hc]
      · simp [startsWith, after?, hc, Ne.symm hc]
  constructor
  · intro h
    unfold printKeyword? at h
    split at h
    · cases h
    · next name value hcut =>
      split at h
      · cases h
      · next hkeyword =>
        rw [hstarts, not_or, not_not] at hkeyword
        obtain rfl := Option.some.inj h
        exact ⟨name, value, by simpa using cut?_eq_some hcut, hkeyword.2, hkeyword.1, rfl⟩
  · rintro ⟨name, value, rfl, hname, hvalue, rfl⟩
    have hcut : cut? ['='] (name ++ '=' :: value) = some (name, value) := by
      rw [cut?_append (equals_not_mem_of_keyword hname)]
      simp [cut?, after?]
    unfold printKeyword?
    rw [hcut]
    exact if_neg (by rw [hstarts, not_or, not_not]; exact ⟨hvalue, hname⟩)

theorem isKeyword_iff : IsKeyword arg ↔ (printKeyword? arg).isSome = true := by
  rw [Option.isSome_iff_exists]
  constructor
  · rintro ⟨name, value, harg, hname, hvalue⟩
    exact ⟨_, printKeyword?_eq_some.mpr ⟨name, value, harg, hname, hvalue, rfl⟩⟩
  · rintro ⟨found, h⟩
    obtain ⟨name, value, harg, hname, hvalue, -⟩ := printKeyword?_eq_some.mp h
    exact ⟨name, value, harg, hname, hvalue⟩

instance : DecidablePred IsKeyword := fun _ ↦ decidable_of_iff _ isKeyword_iff.symm

def separator (args : Line) : Line :=
  (((splitArguments args).filterMap printKeyword?).reverse.lookup "sep".toList).getD "' '".toList

def joining : Joining where
  spread := ['*']
  printed args := (splitArguments args).filter fun arg ↦ ¬ IsKeyword arg
  opening args := '(' :: (separator args ++ ").join(map(str, (".toList)
  closing := ")))".toList

theorem printArguments_eq (args : Line) : printArguments args =
    (((splitArguments args).filterMap printKeyword?).reverse.lookup "sep".toList, joining.printed args) := by
  have hpositional : joining.printed args = (splitArguments args).filter fun arg ↦ ¬ IsKeyword arg := rfl
  rw [printArguments, hpositional]
  generalize splitArguments args = pieces
  induction pieces using List.reverseRecOn with
  | nil => rfl
  | append_singleton pieces arg ih =>
    rw [List.foldl_concat, ih]
    cases hkeyword : printKeyword? arg with
    | none =>
      have hprinted : ¬ IsKeyword arg := by simp [isKeyword_iff, hkeyword]
      simp [hkeyword, hprinted]
    | some found =>
      have hprinted : IsKeyword arg := by simp [isKeyword_iff, hkeyword]
      obtain ⟨name, value⟩ := found
      by_cases hname : name = "sep".toList
      · simp [hkeyword, hprinted, hname]
      · have hlookup : ("sep".toList == name) = false := by simpa using Ne.symm hname
        simp only [hname, if_false, List.filterMap_append, List.filterMap_cons_some hkeyword, List.filterMap_nil,
          List.reverse_append, List.reverse_singleton, List.singleton_append, List.lookup_cons, hlookup,
          List.filter_append, List.filter_singleton, hprinted]
        simp

theorem nested_separator (hpieces : ∀ arg ∈ splitArguments args, IsArgument arg) : Nested 0 .code (separator args) := by
  unfold separator
  cases hlookup : ((splitArguments args).filterMap printKeyword?).reverse.lookup "sep".toList with
  | none => decide
  | some value =>
    obtain ⟨before, after, hsplit, -⟩ := List.lookup_eq_some_iff.mp hlookup
    have hmem : ("sep".toList, value) ∈ (splitArguments args).filterMap printKeyword? :=
      List.mem_reverse.mp (hsplit ▸ List.mem_append_right before List.mem_cons_self)
    obtain ⟨arg, harg, hkeyword⟩ := List.mem_filterMap.mp hmem
    obtain ⟨name, text, rfl, hname, -, hfound⟩ := printKeyword?_eq_some.mp hkeyword
    obtain rfl := (Prod.mk.inj hfound).2
    have hplain : ∀ c ∈ name ++ ['='], IsPlain c := by
      intro c hc
      rcases List.mem_append.mp hc with hc | hc
      · rcases mem_trim_of_mem hc with hblank | htrim
        · exact isPlain_of_isBlank hblank
        · have hall : ∀ keyword ∈ printKeywords, (keyword.all fun c ↦ decide (IsPlain c)) = true := by decide
          exact of_decide_eq_true (List.all_eq_true.mp (hall _ hname) c htrim)
      · obtain rfl := List.mem_singleton.mp hc
        decide
    have hundivided := (hpieces _ harg).undivided
    rw [List.append_cons, undivided_plain_append hplain] at hundivided
    exact hundivided.trim.nested

theorem isArgument_joined (hsep : Nested 0 .code (separator args)) {elements : Line} (h : Nested 0 .code elements) :
    IsArgument (joining.opening args ++ (elements ++ joining.closing)) := by
  have hlist : Nested 0 .code ("str, ".toList ++ '(' :: (elements ++ [')'])) :=
    Nested.append_balanced (by decide) (undivided_parenthesized h).nested
  have hmap : Nested 0 .code ("map".toList ++ '(' :: ("str, ".toList ++ '(' :: (elements ++ [')']) ++ [')'])) :=
    Nested.append_balanced (by decide) (undivided_parenthesized hlist).nested
  have hundivided := (undivided_parenthesized hsep).append
    (Undivided.append (s := ".join".toList) (by decide) (undivided_parenthesized hmap))
  have heq : joining.opening args ++ (elements ++ joining.closing) =
      '(' :: ((separator args ++ ").join(map(str, (".toList ++ (elements ++ "))".toList)) ++ [')']) := by
    simp [joining]
  rw [heq]
  refine isArgument_of_ends ?_ (by decide) (by decide)
  simpa using hundivided

theorem makes_collectedValue (hpieces : ∀ arg ∈ splitArguments args, IsArgument arg) :
    joining.Makes args (collectedValue args) := by
  have htogether {first : Line} {rest : List Line} (h : joining.printed args = first :: rest)
      (hseveral : rest ≠ [] ∨ startsWith first ['*'] = true) : joining.Makes args
        ('(' :: separator args ++ ").join(map(str, (".toList ++ join ", ".toList (first :: rest) ++ ",)))".toList) := by
    have hprinted : ∀ arg ∈ first :: rest, IsArgument arg :=
      fun arg harg ↦ hpieces arg (List.mem_of_mem_filter (h ▸ harg))
    have helements : Nested 0 .code (join ", ".toList (first :: rest) ++ [',']) :=
      (nested_join hprinted).append (k := 0) (by decide)
    have hmade := Joining.Makes.together h hseveral (splitArguments_join_comma (List.cons_ne_nil _ _) hprinted)
      (isArgument_joined (nested_separator hpieces) helements) rfl
    simpa [joining] using hmade
  unfold collectedValue
  rw [printArguments_eq]
  dsimp only
  cases h : joining.printed args with
  | nil => exact .nothing h
  | cons first rest =>
    cases rest with
    | nil =>
      dsimp only
      split
      · next hspread => exact htogether h (.inr hspread)
      · next hplain => exact .alone h (by simpa [joining] using hplain)
    | cons second rest => exact htogether h (.inl (List.cons_ne_nil _ _))

end Python

/-- The arguments of an output call, if they are nested and none of them is empty, come down to one expression, which
carries those that are printed. -/
theorem renderAppend_collects (h : Nested 0 .code args) (hne : [] ∉ splitArguments args) (indent : Line) :
    (∃ value, JavaScript.grammar.renderAppend indent args =
        indent ++ ("answers.push(".toList ++ value ++ ");".toList) ∧ JavaScript.joining.Collects args value) ∧
      ∃ value, Python.grammar.renderAppend indent args =
        indent ++ ("answers.append(".toList ++ value ++ ")".toList) ∧ Python.joining.Collects args value := by
  have hpieces : ∀ arg ∈ splitArguments args, IsArgument arg := fun arg ↦ isArgument_of_mem_splitArguments h hne
  refine ⟨⟨_, rfl, (JavaScript.makes_collectedValue hpieces).collects hpieces rfl⟩, _, rfl, ?_⟩
  exact (Python.makes_collectedValue hpieces).collects (fun arg harg ↦ hpieces arg (List.mem_of_mem_filter harg)) rfl

def mixedArguments : Line := "*xs, f(a, 'b, c'), sep=', '".toList

theorem renderAppend_collects_mixed : Nested 0 .code mixedArguments ∧ [] ∉ splitArguments mixedArguments ∧
    Python.joining.printed mixedArguments = ["*xs".toList, "f(a, 'b, c')".toList] ∧
    splitArguments "(', ').join(map(str, (*xs, f(a, 'b, c'),)))".toList =
      ["(', ').join(map(str, (*xs, f(a, 'b, c'),)))".toList] := by
  have hnested : Nested 0 .code mixedArguments := by decide +kernel
  have hne : [] ∉ splitArguments mixedArguments := by decide +kernel
  have hrendered : Python.grammar.renderAppend [] mixedArguments =
      "answers.append((', ').join(map(str, (*xs, f(a, 'b, c'),))))".toList := by decide +kernel
  obtain ⟨-, value, hvalue, hcollects⟩ := renderAppend_collects hnested hne []
  have heq : "answers.append(".toList ++ ("(', ').join(map(str, (*xs, f(a, 'b, c'),)))".toList ++ ")".toList) =
      "answers.append(".toList ++ (value ++ ")".toList) := hrendered.symm.trans hvalue
  obtain rfl := List.append_cancel_right (List.append_cancel_left heq)
  exact ⟨hnested, hne, by decide +kernel, hcollects.single⟩

end AnswerKey
