import AnswerKey.Proofs.Answer.Forms
import AnswerKey.Proofs.Answer.OuterComma
import AnswerKey.Proofs.Json.Strings

namespace AnswerKey.Answer

open Text Code Json PythonContainer

/-- The literals that are told apart from other texts, and their values. -/
inductive Literal : Dialect → List Char → Json → Prop
  | undefined : Literal .javaScript "undefined".toList .null
  | none : Literal .python "None".toList .null
  | true : Literal .python "True".toList (.bool true)
  | false : Literal .python "False".toList (.bool false)
  | quoted {dialect : Dialect} {body s : List Char} (hbody : Body singleQuote body) (hs : content? body = some s) :
      Literal dialect (quotedBy singleQuote body) (Json.text s)
  | list {inner : List Char} {v : Json} (h : parse? (toJson ('[' :: (inner ++ [']']))) = some v) :
      Literal .python ('[' :: (inner ++ [']'])) v
  | tuple {inner : List Char} {v : Json} (hcomma : HasOuterComma inner)
      (h : parse? ('[' :: (Python.dropCommas (toJson inner) ++ [']'])) = some v) :
      Literal .python ('(' :: (inner ++ [')'])) v
  | json {dialect : Dialect} {text : List Char} {v : Json} (h : parse? text = some v) : Literal dialect text v

/-- Expressions that are read as literals: from one string in single quotes to another, and in parentheses what has
commas only inside strings and brackets. -/
inductive Misread : Dialect → List Char → Json → Prop
  | quoted {dialect : Dialect} {first rest s t : List Char} (hfirst : Body singleQuote first)
      (hs : content? first = some s) (ht : content? rest = some t) :
      Misread dialect (quotedBy singleQuote (first ++ singleQuote :: rest)) (Json.text (s ++ singleQuote :: t))
  | parenthesized {inner : List Char} {v : Json} (hcomma : ',' ∈ inner) (houter : ¬ HasOuterComma inner)
      (h : parse? ('[' :: (Python.dropCommas (toJson inner) ++ [']'])) = some (.array [v])) :
      Misread .python ('(' :: (inner ++ [')'])) (.array [v])

variable {dialect : Dialect} {text body first rest s t : List Char} {v w : Json}

theorem content?_append (hfirst : Body singleQuote first) (hs : content? first = some s) (rest : List Char) :
    content? (first ++ rest) = (content? rest).map (s ++ ·) := by
  induction hfirst generalizing s with
  | nil =>
    cases hs
    exact Option.map_id'.symm
  | plain _ hslash _ ih =>
    obtain ⟨s', rfl, hs'⟩ := exists_of_content?_plain hslash hs
    rw [List.cons_append, content?_plain hslash, ih hs', Option.map_map]
    rfl
  | escaped _ ih =>
    obtain ⟨s', rfl, hs'⟩ := exists_of_content?_escaped hs
    rw [List.cons_append, List.cons_append, content?_escaped, ih hs', Option.map_map]
    rfl

/-- A text whose backslashes are paired, and its content. -/
inductive Resolves : List Char → List Char → Prop
  | nil : Resolves [] []
  | plain {c : Char} {body s : List Char} (hslash : c ≠ backslash) (h : Resolves body s) : Resolves (c :: body) (c :: s)
  | escaped {c : Char} {body s : List Char} (h : Resolves body s) : Resolves (backslash :: c :: body) (unescape c :: s)

theorem resolves_of_content? (h : content? body = some s) : Resolves body s := by
  induction body using content?.induct generalizing s with
  | case1 =>
    cases h
    exact .nil
  | case2 => cases h
  | case3 c hslash =>
    obtain ⟨s', rfl, hs'⟩ := exists_of_content?_plain hslash h
    cases hs'
    exact .plain hslash .nil
  | case4 d text ih =>
    obtain ⟨s', rfl, hs'⟩ := exists_of_content?_escaped h
    exact .escaped (ih hs')
  | case5 c d text hslash ih =>
    obtain ⟨s', rfl, hs'⟩ := exists_of_content?_plain hslash h
    exact .plain hslash (ih hs')

theorem Resolves.content?_eq (h : Resolves body s) : content? body = some s := by
  induction h with
  | nil => rfl
  | plain hslash _ ih => rw [content?_plain hslash, ih, Option.map_some]
  | escaped _ ih => rw [content?_escaped, ih, Option.map_some]

theorem Resolves.length_le (h : Resolves body s) : s.length ≤ body.length := by
  induction h with
  | nil => exact Nat.le_refl _
  | plain _ _ ih => exact Nat.succ_le_succ ih
  | escaped _ ih => exact Nat.succ_le_succ (Nat.le_succ_of_le ih)

theorem Resolves.body_or_exists_append (h : Resolves body s) : Body singleQuote body ∨
    ∃ first rest s₁ s₂, body = first ++ singleQuote :: rest ∧ Body singleQuote first ∧
      Resolves first s₁ ∧ Resolves rest s₂ := by
  induction h with
  | nil => exact .inl .nil
  | @plain c body s hslash h ih =>
    by_cases hquote : c = singleQuote
    · exact .inr ⟨[], body, [], s, congrArg (· :: body) hquote, .nil, .nil, h⟩
    rcases ih with hbody | ⟨first, rest, s₁, s₂, rfl, hfirst, h₁, h₂⟩
    · exact .inl (.plain hquote hslash hbody)
    · exact .inr ⟨c :: first, rest, c :: s₁, s₂, rfl, .plain hquote hslash hfirst, .plain hslash h₁, h₂⟩
  | @escaped c body s _ ih =>
    rcases ih with hbody | ⟨first, rest, s₁, s₂, rfl, hfirst, h₁, h₂⟩
    · exact .inl (.escaped hbody)
    · exact .inr ⟨backslash :: c :: first, rest, unescape c :: s₁, s₂, rfl, .escaped hfirst, .escaped h₁, h₂⟩

theorem body_plain_iff {c : Char} (hslash : c ≠ backslash) :
    Body singleQuote (c :: body) ↔ c ≠ singleQuote ∧ Body singleQuote body := by
  constructor
  · intro h
    cases h with
    | plain hquote _ h => exact ⟨hquote, h⟩
    | escaped _ => exact absurd rfl hslash
  · exact fun h ↦ .plain h.1 hslash h.2

theorem body_escaped_iff {c : Char} : Body singleQuote (backslash :: c :: body) ↔ Body singleQuote body := by
  constructor
  · intro h
    cases h with
    | plain _ hslash _ => exact absurd rfl hslash
    | escaped h => exact h
  · exact .escaped

theorem not_body_append (hfirst : Body singleQuote first) (rest : List Char) :
    ¬ Body singleQuote (first ++ singleQuote :: rest) := by
  intro h
  induction hfirst with
  | nil => exact ((body_plain_iff (by decide)).mp h).1 rfl
  | plain _ hslash _ ih => exact ih ((body_plain_iff hslash).mp h).2
  | escaped _ ih => exact ih (body_escaped_iff.mp h)

theorem Literal.shape (h : Literal dialect text v) :
    (text.head? = some singleQuote → ∃ body, text = quotedBy singleQuote body ∧ Body singleQuote body) ∧
      (text.head? = some '(' → ∃ inner, text = '(' :: (inner ++ [')']) ∧ HasOuterComma inner) := by
  cases h with
  | quoted hbody _ => exact ⟨fun _ ↦ ⟨_, rfl, hbody⟩, fun hhead ↦ (by cases hhead)⟩
  | tuple hcomma _ => exact ⟨fun hhead ↦ (by cases hhead), fun _ ↦ ⟨_, rfl, hcomma⟩⟩
  | json h =>
    have hlexical := lexical_of_parse? h
    constructor <;> intro hhead <;> obtain ⟨rest, rfl⟩ := List.head?_eq_some_iff.mp hhead <;>
      exact absurd hlexical (not_lexical_cons (by decide) (by decide))
  | list | undefined | none | true | false => constructor <;> intro hhead <;> cases hhead

theorem Misread.not_literal (h : Misread dialect text v) : ¬ Literal dialect text w := by
  intro hliteral
  cases h with
  | @quoted _ first rest _ _ hfirst _ _ =>
    obtain ⟨body, heq, hbody⟩ := hliteral.shape.1 rfl
    obtain rfl := enclosed_inj.mp heq
    exact not_body_append hfirst rest hbody
  | parenthesized _ houter _ =>
    obtain ⟨inner, heq, hcomma⟩ := hliteral.shape.2 rfl
    obtain rfl := enclosed_inj.mp heq
    exact houter hcomma

theorem content?_append_quote (hfirst : Body singleQuote first) (hs : content? first = some s)
    (ht : content? rest = some t) : content? (first ++ singleQuote :: rest) = some (s ++ singleQuote :: t) := by
  rw [content?_append hfirst hs, content?_plain (by decide), ht]
  rfl

theorem Misread.ne_text (h : Misread dialect text v) : v ≠ Json.text text := by
  cases h with
  | quoted hfirst hs ht =>
    intro heq
    -- Without its outer quotes and with its escapes resolved, the text is shorter.
    have hlength := (resolves_of_content? (content?_append_quote hfirst hs ht)).length_le
    rw [String.ofList_inj.mp (Json.string.inj heq), quotedBy, List.length_cons, List.length_append] at hlength
    omega
  | parenthesized _ _ _ =>
    intro heq
    cases heq

theorem Literal.read_eq (hdialect : dialect ≠ .java) (h : Literal dialect text v) (htrim : trim text = text) :
    read dialect text = v := by
  cases h with
  | undefined => rfl
  | none => rfl
  | true => rfl
  | false => rfl
  | quoted _ hs => exact read_quoted hdialect hs
  | list h => exact Python.read_bracketed h
  | tuple hcomma h => exact Python.read_parenthesized hcomma.mem h
  | json h => exact read_of_parse? dialect h htrim

theorem Misread.read_eq (hdialect : dialect ≠ .java) (h : Misread dialect text v) : read dialect text = v := by
  cases h with
  | quoted hfirst hs ht =>
    exact read_quoted hdialect (content?_append_quote hfirst hs ht)
  | parenthesized hcomma _ h => exact Python.read_parenthesized hcomma h

theorem literal_or_misread_of_singleQuoted? (h : singleQuoted? text = some s) :
    Literal dialect text (Json.text s) ∨ Misread dialect text (Json.text s) := by
  obtain ⟨body, rfl, hs⟩ := singleQuoted?_eq_some_iff.mp h
  rcases (resolves_of_content? hs).body_or_exists_append with hbody | ⟨first, rest, s₁, s₂, rfl, hfirst, h₁, h₂⟩
  · exact .inl (.quoted hbody hs)
  · rw [content?_append_quote hfirst h₁.content?_eq h₂.content?_eq] at hs
    cases hs
    exact .inr (.quoted hfirst h₁.content?_eq h₂.content?_eq)

theorem JavaScript.literal_or_misread (h : JavaScript.value? text = some v) :
    Literal .javaScript text v ∨ Misread .javaScript text v := by
  unfold JavaScript.value? at h
  split at h
  · next hundefined =>
    subst hundefined
    cases h
    exact .inl .undefined
  · obtain ⟨s, hs, rfl⟩ := Option.map_eq_some_iff.mp h
    exact literal_or_misread_of_singleQuoted? hs

namespace Python

theorem literal_of_keyword? (h : keyword? text = some v) : Literal .python text v := by
  unfold keyword? at h
  split at h
  · next heq =>
    subst heq
    cases h
    exact .true
  split at h
  · next heq =>
    subst heq
    cases h
    exact .false
  split at h
  · next heq =>
    subst heq
    cases h
    exact .none
  · cases h

theorem literal_or_misread_of_container? (h : container? text = some v) :
    Literal .python text v ∨ Misread .python text v := by
  unfold container? at h
  split at h
  · next hbracket =>
    obtain ⟨inner, hinner⟩ := Option.isSome_iff_exists.mp hbracket
    rw [between?_eq_some_iff.mp hinner] at h ⊢
    exact .inl (.list h)
  · split at h
    · cases h
    · next inner hinner =>
      rw [between?_eq_some_iff.mp hinner]
      split at h
      · next hcomma =>
        by_cases houter : HasOuterComma inner
        · exact .inl (.tuple houter h)
        · obtain ⟨w, rfl⟩ := exists_item_of_parse? hcomma houter h
          exact .inr (.parenthesized hcomma houter h)
      · cases h

theorem literal_or_misread (h : value? text = some v) : Literal .python text v ∨ Misread .python text v := by
  rcases Option.or_eq_some_iff.mp h with hkeyword | ⟨-, h⟩
  · exact .inl (literal_of_keyword? hkeyword)
  rcases Option.or_eq_some_iff.mp h with hquoted | ⟨-, hcontainer⟩
  · obtain ⟨s, hs, rfl⟩ := Option.map_eq_some_iff.mp hquoted
    exact literal_or_misread_of_singleQuoted? hs
  · exact literal_or_misread_of_container? hcontainer

end Python

theorem read_of_neither (hdialect : dialect ≠ .java) (htrim : trim text = text)
    (hliteral : ∀ v, ¬ Literal dialect text v) (hmisread : ∀ v, ¬ Misread dialect text v) :
    read dialect text = Json.text text := by
  have hparse : parse? text = none := Option.eq_none_iff_forall_ne_some.mpr fun v h ↦ hliteral v (.json h)
  have hvalue : dialectValue? dialect text = none := by
    refine Option.eq_none_iff_forall_ne_some.mpr fun v h ↦ ?_
    have hform : Literal dialect text v ∨ Misread dialect text v := by
      cases dialect with
      | java => exact absurd rfl hdialect
      | javaScript => exact JavaScript.literal_or_misread h
      | python => exact Python.literal_or_misread h
    exact hform.elim (hliteral v) (hmisread v)
  rw [read, htrim, hvalue, hparse]
  rfl

theorem read_trim (dialect : Dialect) (text : List Char) : read dialect (trim text) = read dialect text := by
  rw [read, read, trim_trim]

/-- In Python and JavaScript a text is read as the literal that it is. Texts that are none are kept as they stand,
except for those of the two kinds that are misread. -/
theorem read_by_form (hdialect : dialect ≠ .java) (text : List Char) :
    (∀ v, Literal dialect (trim text) v → read dialect text = v) ∧
      (∀ v, Misread dialect (trim text) v →
        read dialect text = v ∧ v ≠ Json.text (trim text) ∧ ∀ w, ¬ Literal dialect (trim text) w) ∧
      ((∀ v, ¬ Literal dialect (trim text) v) → (∀ v, ¬ Misread dialect (trim text) v) →
        read dialect text = Json.text (trim text)) := by
  rw [← read_trim]
  refine ⟨fun v h ↦ h.read_eq hdialect (trim_trim text), fun v h ↦ ?_, read_of_neither hdialect (trim_trim text)⟩
  exact ⟨h.read_eq hdialect, h.ne_text, fun w ↦ h.not_literal⟩

theorem misread_expressions :
    Misread .javaScript "'a' + 'b'".toList (.string "a' + 'b") ∧
      Misread .python "('a,b')".toList (.array [.string "a,b"]) := by
  constructor
  · have hfirst : Body singleQuote "a".toList := .plain (by decide) (by decide) .nil
    have hrest : content? " + 'b".toList = some " + 'b".toList := by decide
    exact .quoted hfirst rfl hrest
  · have hjson : '[' :: (Python.dropCommas (toJson "'a,b'".toList) ++ [']']) = "[\"a,b\"]".toList := by decide
    have hstring : Decodes "a,b".toList "a,b".toList :=
      .plain (by decide) (by decide) (by decide) (.plain (by decide) (by decide) (by decide)
        (.plain (by decide) (by decide) (by decide) .nil))
    have hparsed : parse? ('[' :: (Python.dropCommas (toJson "'a,b'".toList) ++ [']'])) =
        some (.array [Json.text "a,b".toList]) := by
      rw [hjson]
      exact parse?_of_readsAs (readsAs_array (.cons (readsAs_string hstring) .nil))
    exact .parenthesized (by decide) (by decide) hparsed

/-- Not only one string in single quotes is read as such, and not only what has a comma outside strings and brackets as
a tuple. -/
theorem expressions_read_as_literals :
    (∃ text s, read .javaScript text = Json.text s ∧ singleQuoted? (trim text) = some s ∧
        ¬ ∃ body, trim text = quotedBy singleQuote body ∧ Body singleQuote body) ∧
      ∃ inner items, read .python ('(' :: (inner ++ [')'])) = .array items ∧ ¬ HasOuterComma inner := by
  obtain ⟨hquoted, hparenthesized⟩ := misread_expressions
  refine ⟨⟨"'a' + 'b'".toList, "a' + 'b".toList, hquoted.read_eq (by decide), by decide, ?_⟩,
    "'a,b'".toList, [.string "a,b"], hparenthesized.read_eq (by decide), by decide⟩
  rintro ⟨body, htext, hbody⟩
  obtain ⟨s, hs⟩ := exists_content? hbody
  have hliteral : Literal .javaScript "'a' + 'b'".toList (Json.text s) := by
    change Literal .javaScript (trim "'a' + 'b'".toList) _
    rw [htext]
    exact .quoted hbody hs
  exact hquoted.not_literal hliteral

theorem read_by_form_samples :
    read .python " 'it\\'s' ".toList = .string "it's" ∧ read .javaScript "'a' + 'b'".toList = .string "a' + 'b" ∧
      read .python "('a,b')".toList = .array [.string "a,b"] := by
  have hbody : Body singleQuote "it\\'s".toList :=
    .plain (by decide) (by decide) (.plain (by decide) (by decide) (.escaped (.plain (by decide) (by decide) .nil)))
  have hquoted : Literal .python (quotedBy singleQuote "it\\'s".toList) (Json.text "it's".toList) := .quoted hbody rfl
  exact ⟨(read_by_form (by decide) _).1 _ hquoted, ((read_by_form (by decide) _).2.1 _ misread_expressions.1).1,
    ((read_by_form (by decide) _).2.1 _ misread_expressions.2).1⟩

end AnswerKey.Answer
