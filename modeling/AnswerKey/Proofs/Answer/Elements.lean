import AnswerKey.Proofs.Answer.Forms
import AnswerKey.Proofs.Json.Strings

namespace AnswerKey.Answer

open Text Code Json Number PythonContainer

/-- The characters that a backslash stands before. -/
def escapedChars : List Char → List Char
  | [] => []
  | [_] => []
  | c :: d :: rest => if c = backslash then d :: escapedChars rest else escapedChars (d :: rest)

/-- Escapes that stand for another character in JSON, and for the character behind the backslash in a lone string. -/
def jsonEscapes : List Char := ['b', 'f', 'r', 'u']

variable {text json body s t decoded resolved : List Char} {texts jsons : List (List Char)} {values : List Json}
  {c : Char}

theorem escapedChars_plain (hslash : c ≠ backslash) (text : List Char) :
    escapedChars (c :: text) = escapedChars text := by
  cases text with
  | nil => rfl
  | cons d text => rw [escapedChars, if_neg hslash]

theorem ne_singleQuote_of_hexValue? {n : Nat} (h : hexValue? c = some n) : c ≠ singleQuote := by
  rintro rfl
  cases h

theorem exists_of_hexValue? {n : Nat} (hc : hexValue? c = some n) (h : Requoted s (c :: t))
    (hresolved : content? s = some resolved) : ∃ s' resolved', Requoted s' t ∧ content? s' = some resolved' ∧
      s = c :: s' ∧ resolved = c :: resolved' := by
  have hslash : c ≠ backslash := (plain_of_hexValue? hc).2
  cases h with
  | plain _ _ _ h =>
    obtain ⟨resolved, rfl, hrest⟩ := exists_of_content?_plain hslash hresolved
    exact ⟨_, resolved, h, hrest, rfl, rfl⟩
  | double _ => exact absurd rfl hslash
  | single _ => exact absurd rfl (ne_singleQuote_of_hexValue? hc)
  | escaped _ _ => exact absurd rfl hslash

theorem exists_of_unit? {c₁ c₂ c₃ c₄ : Char} {n : Nat} (hn : unit? c₁ c₂ c₃ c₄ = some n)
    (h : Requoted s (backslash :: 'u' :: c₁ :: c₂ :: c₃ :: c₄ :: t)) (hresolved : content? s = some resolved) :
    ∃ s' resolved', Requoted s' t ∧ content? s' = some resolved' ∧
      (∃ body, s = backslash :: 'u' :: body) ∧ resolved'.length + 1 < resolved.length := by
  simp only [unit?, Option.bind_eq_bind, Option.bind_eq_some_iff] at hn
  obtain ⟨_, h₁, _, h₂, _, h₃, _, h₄, -⟩ := hn
  cases h with
  | plain _ _ hslash _ => exact absurd rfl hslash
  | escaped _ h =>
    obtain ⟨r, rfl, hr⟩ := exists_of_content?_escaped hresolved
    obtain ⟨s₁, r₁, hs₁, hr₁, rfl, rfl⟩ := exists_of_hexValue? h₁ h hr
    obtain ⟨s₂, r₂, hs₂, hr₂, rfl, rfl⟩ := exists_of_hexValue? h₂ hs₁ hr₁
    obtain ⟨s₃, r₃, hs₃, hr₃, rfl, rfl⟩ := exists_of_hexValue? h₃ hs₂ hr₂
    obtain ⟨s₄, r₄, hs₄, hr₄, rfl, rfl⟩ := exists_of_hexValue? h₄ hs₃ hr₃
    refine ⟨s₄, r₄, hs₄, hr₄, ⟨_, rfl⟩, ?_⟩
    simp only [List.length_cons]
    omega

structure Compared (body decoded resolved : List Char) : Prop where
  length_le : decoded.length ≤ resolved.length
  eq_iff : decoded = resolved ↔ ∀ c ∈ escapedChars body, c ∉ jsonEscapes

theorem Compared.plain (h : Compared body decoded resolved) (hslash : c ≠ backslash) :
    Compared (c :: body) (c :: decoded) (c :: resolved) where
  length_le := Nat.succ_le_succ h.length_le
  eq_iff := by rw [escapedChars_plain hslash, List.cons.injEq, h.eq_iff, and_iff_right rfl]

theorem Compared.escaped (h : Compared body decoded resolved) {d : Char} (hd : d = unescape c ↔ c ∉ jsonEscapes) :
    Compared (backslash :: c :: body) (d :: decoded) (unescape c :: resolved) where
  length_le := Nat.succ_le_succ h.length_le
  eq_iff := by
    have hchars : escapedChars (backslash :: c :: body) = c :: escapedChars body := if_pos rfl
    rw [hchars, List.cons.injEq, hd, h.eq_iff, List.forall_mem_cons]

theorem compared_unit (hlength : decoded.length < resolved.length) (body : List Char) :
    Compared (backslash :: 'u' :: body) decoded resolved where
  length_le := hlength.le
  -- The digits become one character in JSON and stay as they are alone, so the two differ in length.
  eq_iff := by
    have hchars : escapedChars (backslash :: 'u' :: body) = 'u' :: escapedChars body := if_pos rfl
    refine iff_of_false ?_ ?_
    · intro heq
      exact hlength.ne (congrArg List.length heq)
    · rw [hchars]
      exact fun hplain ↦ hplain 'u' List.mem_cons_self (by decide)

theorem compared_of_decodes (hdecoded : Decodes t decoded) (hquotes : Requoted s t)
    (hresolved : content? s = some resolved) : Compared s decoded resolved := by
  -- The length carries the induction over the texts behind digits, where nothing else can be told apart.
  induction hdecoded generalizing s resolved with
  | nil =>
    cases hquotes
    cases hresolved
    exact ⟨Nat.le_refl _, iff_of_true rfl (List.forall_mem_nil _)⟩
  | plain _ hslash _ _ ih =>
    cases hquotes with
    | plain _ _ _ hquotes =>
      obtain ⟨resolved, rfl, hrest⟩ := exists_of_content?_plain hslash hresolved
      exact (ih hquotes hrest).plain hslash
    | double _ => exact absurd rfl hslash
    | single hquotes =>
      obtain ⟨resolved, rfl, hrest⟩ := exists_of_content?_escaped hresolved
      exact (ih hquotes hrest).escaped (by decide)
    | escaped _ _ => exact absurd rfl hslash
  | @escaped c d _ _ hc _ ih =>
    cases hquotes with
    | plain _ _ hslash _ => exact absurd rfl hslash
    | double hquotes =>
      have hdouble : ∀ p ∈ escapes, p.1 = doubleQuote → p.2 = doubleQuote := by decide
      cases hdouble _ hc rfl
      obtain ⟨resolved, rfl, hrest⟩ := exists_of_content?_plain (by decide) hresolved
      exact (ih hquotes hrest).plain (by decide)
    | escaped _ hquotes =>
      have hall : ∀ p ∈ escapes, p.2 = unescape p.1 ↔ p.1 ∉ jsonEscapes := by decide
      obtain ⟨resolved, rfl, hrest⟩ := exists_of_content?_escaped hresolved
      exact (ih hquotes hrest).escaped (hall _ hc)
  | unit hn _ _ ih =>
    obtain ⟨_, _, hquotes', hrest, ⟨_, rfl⟩, hlength⟩ := exists_of_unit? hn hquotes hresolved
    have := (ih hquotes' hrest).length_le
    exact compared_unit (Nat.lt_of_le_of_lt (Nat.succ_le_succ this) hlength) _
  | pair hhigh hlow _ _ _ ih =>
    obtain ⟨_, _, hfirst, hrest, ⟨_, rfl⟩, hlength⟩ := exists_of_unit? hhigh hquotes hresolved
    obtain ⟨_, _, hsecond, hrest', -, hlength'⟩ := exists_of_unit? hlow hfirst hrest
    have := (ih hsecond hrest').length_le
    refine compared_unit ?_ _
    rw [List.length_cons]
    omega

namespace Python

/-- A literal of Python that holds no others, with the numbers of JSON. -/
inductive Element : List Char → Prop
  | none : Element "None".toList
  | true : Element "True".toList
  | false : Element "False".toList
  | number {text : List Char} {value : Option Number} (h : IsNumber text value) : Element text
  | single {body : List Char} (h : Body singleQuote body) : Element (quotedBy singleQuote body)
  | double {body : List Char} (h : Body doubleQuote body) : Element (quotedBy doubleQuote body)

/-- Alone, the text has no escape that is resolved in lists only. -/
def ReadsAlike (text : List Char) : Prop :=
  ∀ body, text = quotedBy singleQuote body → ∀ c ∈ escapedChars body, c ∉ jsonEscapes

theorem readsAlike_of_head (h : text.head? ≠ some singleQuote) : ReadsAlike text := by
  rintro body rfl
  exact absurd rfl h

theorem readsAlike_quotedBy_iff :
    ReadsAlike (quotedBy singleQuote body) ↔ ∀ c ∈ escapedChars body, c ∉ jsonEscapes := by
  constructor
  · intro h
    exact h body rfl
  · intro h body' heq
    obtain rfl := enclosed_inj.mp heq
    exact h

/-- What an item of a list becomes in JSON, and what can be read of it there. -/
structure Item (text json : List Char) : Prop where
  converts : Converts text json
  taken : TakenAs 126 json fun v ↦ v = read .python text ↔ ReadsAlike text
  begins : ∃ c rest, json = c :: rest ∧ Json.isBlank c = false ∧ c ≠ ']'

theorem item_keyword {word : List Char} (v : Json) (hword : word.all isWordPart = true)
    (hjson : jsonWord word = json) (h : (json, v) ∈ literals) (hread : v = read .python word)
    (hhead : word.head? ≠ some singleQuote) : Item word json where
  converts := hjson ▸ converts_word hword
  taken := takenAs_of_readsAs (readsAs_literal h) (iff_of_true hread (readsAlike_of_head hhead))
  begins := by
    have hall : ∀ p ∈ literals, ∃ c rest, p.1 = c :: rest ∧ Json.isBlank c = false ∧ c ≠ ']' := by
      simp [literals, Json.isBlank]
    exact hall _ h

theorem item_number {value : Option Number} (h : IsNumber text value) : Item text text := by
  have hnumeral := h.forall_isNumeral
  obtain ⟨c, rest, rfl⟩ := List.exists_cons_of_ne_nil h.ne_nil
  have hc := hnumeral c List.mem_cons_self
  have hmarks : isNumeral singleQuote = false ∧ isNumeral ']' = false := by decide
  refine ⟨converts_of_lexical (lexical_of_forall ?_), takenAs_number h ?_,
    ⟨c, rest, rfl, Json.not_isBlank_of_isNumeral hc, ?_⟩⟩
  · intro c hc
    simp [isStructural, hnumeral c hc]
  · rintro n rfl
    refine iff_of_true ?_ (readsAlike_of_head ?_)
    · exact (read_of_parse? .python (parse?_of_readsAs (readsAs_number h)) (trim_number h)).symm
    · rintro heq
      cases heq
      exact Bool.false_ne_true (hmarks.1.symm.trans hc)
  · rintro rfl
    exact Bool.false_ne_true (hmarks.2.symm.trans hc)

theorem item_double (h : Body doubleQuote body) : Item (quotedBy doubleQuote body) (quotedBy doubleQuote body) where
  converts := converts_double h
  taken := by
    refine takenAs_string (content_of_body h) fun s hs ↦ iff_of_true ?_ (readsAlike_of_head ?_)
    · have hparsed : parse? (quotedBy doubleQuote body) = some (Json.text s) := parse?_of_readsAs (readsAs_string hs)
      exact (read_of_parse? .python hparsed (trim_of_ends (by decide) (by decide) body)).symm
    · exact fun heq ↦ absurd (Option.some.inj heq) (by decide)
  begins := ⟨doubleQuote, body ++ [doubleQuote], rfl, by decide, by decide⟩

theorem exists_item_single (h : Body singleQuote body) : ∃ json, Item (quotedBy singleQuote body) json := by
  obtain ⟨t, ht⟩ := exists_requoted h
  obtain ⟨resolved, hresolved⟩ := exists_content? h
  refine ⟨quotedBy doubleQuote t, converts_single ht, takenAs_string ht.content ?_,
    ⟨doubleQuote, t ++ [doubleQuote], rfl, by decide, by decide⟩⟩
  intro decoded hdecoded
  rw [read_quoted (by decide) hresolved, readsAlike_quotedBy_iff,
    ← (compared_of_decodes hdecoded ht hresolved).eq_iff, Json.text, Json.text, Json.string.injEq, String.ofList_inj]

theorem Element.exists_item (h : Element text) : ∃ json, Item text json := by
  cases h with
  | none => exact ⟨"null".toList, item_keyword .null (by decide) rfl (by simp [literals]) rfl (by decide)⟩
  | true => exact ⟨"true".toList, item_keyword (.bool .true) (by decide) rfl (by simp [literals]) rfl (by decide)⟩
  | false => exact ⟨"false".toList, item_keyword (.bool .false) (by decide) rfl (by simp [literals]) rfl (by decide)⟩
  | number h => exact ⟨text, item_number h⟩
  | single h => exact exists_item_single h
  | double h => exact ⟨_, item_double h⟩

theorem exists_items {qs : List (List Char)} (hqs : ∀ q ∈ qs, Element q) : ∃ jsons, List.Forall₂ Item qs jsons := by
  induction qs with
  | nil => exact ⟨[], .nil⟩
  | cons q qs ih =>
    obtain ⟨hq, hqs⟩ := List.forall_mem_cons.mp hqs
    obtain ⟨json, hjson⟩ := hq.exists_item
    obtain ⟨jsons, hjsons⟩ := ih hqs
    exact ⟨json :: jsons, .cons hjson hjsons⟩

theorem items_of_enclosed {rest rest' : List Char}
    (hbegins : ∃ c text, json = c :: text ∧ Json.isBlank c = false ∧ c ≠ ']')
    (h : Enclosed (Json.value? 126) ']' values (join ", ".toList (json :: jsons) ++ ']' :: rest) rest') :
    Items (Json.value? 126) ']' values (join ", ".toList (json :: jsons) ++ ']' :: rest) rest' := by
  cases h with
  | items _ _ h => exact h
  | empty hclose =>
    obtain ⟨c, text, rfl, hblank, hc⟩ := hbegins
    obtain ⟨afterFirst, hjoin⟩ :
        ∃ afterFirst, join ", ".toList ((c :: text) :: jsons) ++ ']' :: rest = c :: afterFirst := by
      cases jsons with
      | nil => exact ⟨_, rfl⟩
      | cons next jsons => exact ⟨_, by rw [join_cons_cons]; rfl⟩
    rw [hjoin, skipBlanks, List.dropWhile_cons_of_neg (by simp [hblank])] at hclose
    exact absurd (List.cons.inj hclose).1 hc

variable {qs : List (List Char)}

theorem forall₂_of_read (hne : qs ≠ []) (hitems : List.Forall₂ Item qs jsons)
    (h : read .python ('[' :: (join ", ".toList qs ++ [']'])) = .array values) :
    List.Forall₂ (fun q v ↦ v = read .python q ↔ ReadsAlike q) qs values := by
  have hconverts : List.Forall₂ Converts qs jsons := hitems.imp fun _ _ h ↦ h.converts
  have htaken : List.Forall₂ (TakenAs 126) jsons (qs.map fun q v ↦ v = read .python q ↔ ReadsAlike q) := by
    rw [List.forall₂_map_right_iff]
    exact (hitems.imp fun _ _ h ↦ h.taken).flip
  have hparsed := parse?_of_read_bracketed h
  rw [(converts_list hconverts).toJson_eq] at hparsed
  obtain ⟨rest, hvalue, -⟩ := parse?_eq_some_iff.mp hparsed
  have henclosed := (value?_of_bracket rfl).mp hvalue
  cases hitems with
  | nil => exact absurd rfl hne
  | cons hfirst _ =>
    have hread := forall₂_of_items htaken (List.cons_ne_nil _ _) (items_of_enclosed hfirst.begins henclosed)
    exact List.forall₂_map_left_iff.mp hread

theorem eq_map_iff_of_forall₂ {P : List Char → Prop} {f : List Char → Json}
    (h : List.Forall₂ (fun q v ↦ v = f q ↔ P q) qs values) : values = qs.map f ↔ ∀ q ∈ qs, P q := by
  induction h with
  | nil => simp
  | cons hfirst _ ih => rw [List.map_cons, List.cons.injEq, hfirst, ih, List.forall_mem_cons]

/-- A list of literals that is read as an array has one item for each of them; an item is what the literal is read as
alone exactly if this is no string in single quotes with an escape that only JSON resolves. -/
theorem list_read_by_items (hne : qs ≠ []) (hqs : ∀ q ∈ qs, Element q)
    (h : read .python ('[' :: (join ", ".toList qs ++ [']'])) = .array values) :
    List.Forall₂ (fun q v ↦ v = read .python q ↔ ReadsAlike q) qs values ∧
      (values = qs.map (read .python) ↔ ∀ q ∈ qs, ReadsAlike q) := by
  obtain ⟨jsons, hitems⟩ := exists_items hqs
  have hread := forall₂_of_read hne hitems h
  exact ⟨hread, eq_map_iff_of_forall₂ hread⟩

theorem list_read_by_items_mixed :
    List.Forall₂ (fun q v ↦ v = read .python q ↔ ReadsAlike q)
        ["None".toList, "-7".toList, "'\\r'".toList, "\"\\r\"".toList]
        [.null, Json.int (-7), .string "\r", .string "\r"] ∧
      ¬ ReadsAlike "'\\r'".toList := by
  have hreturn : Body singleQuote "\\r".toList := .escaped .nil
  have hreturn' : Body doubleQuote "\\r".toList := .escaped .nil
  have hnumber : IsNumber "-7".toList (some (.int (-7))) :=
    .negative ⟨List.cons_ne_nil '7' [], List.forall_mem_singleton.mpr rfl, by decide⟩ .absent .absent
  have hstring : ReadsAs 126 "\"\\r\"".toList (.string "\r") := readsAs_string (.escaped (by decide) .nil)
  have hconverts : Converts "-7".toList "-7".toList :=
    converts_of_lexical (lexical_of_forall (List.all_eq_true.mp (by decide)))
  have hnull : ReadsAs 126 (jsonWord "None".toList) .null := readsAs_literal (by simp [literals, jsonWord])
  have hread : read .python ('[' :: (join ", ".toList
      ["None".toList, "-7".toList, "'\\r'".toList, "\"\\r\"".toList] ++ [']'])) =
        .array [.null, Json.int (-7), .string "\r", .string "\r"] :=
    read_list (.cons (converts_word (by decide)) (.cons hconverts
        (.cons (converts_single (.escaped (by decide) .nil)) (.cons (converts_double hreturn') .nil))))
      (.cons hnull (.cons (readsAs_number hnumber) (.cons hstring (.cons hstring .nil))))
  refine ⟨(list_read_by_items (List.cons_ne_nil _ _) ?_ hread).1, fun h ↦ ?_⟩
  · simp only [List.forall_mem_cons]
    exact ⟨.none, .number hnumber, .single hreturn, .double hreturn', List.forall_mem_nil _⟩
  · exact h "\\r".toList rfl 'r' (by decide) (by decide)

theorem list_read_apart : ¬ ∀ (qs : List (List Char)) (values : List Json), qs ≠ [] → (∀ q ∈ qs, Element q) →
    read .python ('[' :: (join ", ".toList qs ++ [']'])) = .array values → values = qs.map (read .python) := by
  intro hreadsAsMap
  have hread : read .python ('[' :: (join ", ".toList ["'\\r'".toList] ++ [']'])) = .array [.string "\r"] :=
    read_list (.cons (converts_single (.escaped (by decide) .nil)) .nil)
      (.cons (readsAs_string (.escaped (by decide) .nil)) .nil)
  have halone : read .python "'\\r'".toList = .string "r" := rfl
  have heq := hreadsAsMap ["'\\r'".toList] [.string "\r"] (List.cons_ne_nil _ _)
    (List.forall_mem_singleton.mpr (.single (.escaped .nil))) hread
  rw [List.map_singleton, halone] at heq
  exact absurd (Json.string.inj (List.cons.inj heq).1) (by decide)

end Python
end AnswerKey.Answer
