import AnswerKey.Proofs.Answer.Forms
import AnswerKey.Proofs.Json.Written

namespace AnswerKey.Answer.Python

open Text Code Json Number PythonContainer

/-- Control characters other than these two have escapes of their own in Python. -/
def Writable (c : Char) : Prop := 0x20 ≤ c.toNat ∨ c = '\n' ∨ c = '\t'

instance : DecidablePred Writable := fun _ ↦ inferInstanceAs (Decidable (_ ∨ _))

/-- A value made of nothing, truth values, whole numbers of the 64-bit ranges, strings, and lists. -/
inductive Constant where
  | none
  | bool (b : Bool)
  | int (n : Int) (hmin : -2 ^ 63 ≤ n) (hmax : n < 2 ^ 64)
  | string (s : List Char) (hs : ∀ c ∈ s, Writable c)
  | list (items : List Constant)

def escape (c : Char) : List Char :=
  if c = backslash then [backslash, backslash]
  else if c = singleQuote then [backslash, singleQuote]
  else if c = '\n' then [backslash, 'n']
  else if c = '\t' then [backslash, 't']
  else [c]

namespace Constant

mutual

def written : Constant → List Char
  | none => "None".toList
  | bool true => "True".toList
  | bool false => "False".toList
  | int n _ _ => Number.text (.int n)
  | string s _ => quotedBy singleQuote (s.flatMap escape)
  | list items => '[' :: (join ", ".toList (writtenItems items) ++ [']'])

def writtenItems : List Constant → List (List Char)
  | [] => []
  | v :: items => v.written :: writtenItems items

end

mutual

/-- The JSON value it denotes. -/
def value : Constant → Json
  | none => .null
  | bool b => .bool b
  | int n _ _ => Json.int n
  | string s _ => Json.text s
  | list items => .array (values items)

def values : List Constant → List Json
  | [] => []
  | v :: items => v.value :: values items

end

mutual

def depth : Constant → Nat
  | list items => depthOfItems items + 1
  | _ => 0

def depthOfItems : List Constant → Nat
  | [] => 0
  | v :: items => max v.depth (depthOfItems items)

end

/-- A tuple of the values; of one value it has a comma at its end. -/
def writtenTuple : List Constant → List Char
  | [v] => '(' :: (v.written ++ [',', ')'])
  | items => '(' :: (join ", ".toList (writtenItems items) ++ [')'])

end Constant

def EndsItem (json : List Char) : Prop := ∃ c ∈ json.getLast?, c ≠ ',' ∧ c ≠ ' '

structure Denotes (level : Nat) (text : List Char) (v : Json) (json : List Char) : Prop where
  converts : Converts text json
  readsAs : ReadsAs level json v
  ends : EndsItem json

variable {level : Nat} {s text json : List Char} {v : Json} {texts jsons : List (List Char)} {found : List Json}

theorem endsItem_concat {c : Char} (front : List Char) (h : c ≠ ',' ∧ c ≠ ' ') : EndsItem (front ++ [c]) :=
  ⟨c, by simp, h⟩

theorem denotes_word {word : List Char} (hword : word.all isWordPart = true) (hjson : jsonWord word = json)
    (h : (json, v) ∈ literals) (hends : EndsItem json) : Denotes level word v json :=
  ⟨hjson ▸ converts_word hword, readsAs_literal h, hends⟩

theorem denotes_none (level : Nat) : Denotes level "None".toList .null "null".toList :=
  denotes_word (by decide) rfl (by simp [literals]) (endsItem_concat ['n', 'u', 'l'] (by decide))

theorem denotes_true (level : Nat) : Denotes level "True".toList (.bool true) "true".toList :=
  denotes_word (by decide) rfl (by simp [literals]) (endsItem_concat ['t', 'r', 'u'] (by decide))

theorem denotes_false (level : Nat) : Denotes level "False".toList (.bool false) "false".toList :=
  denotes_word (by decide) rfl (by simp [literals]) (endsItem_concat ['f', 'a', 'l', 's'] (by decide))

theorem denotes_int {n : Int} (hmin : -2 ^ 63 ≤ n) (hmax : n < 2 ^ 64) :
    Denotes level (Number.text (.int n)) (Json.int n) (Number.text (.int n)) := by
  have hnumber := isNumber_text hmin hmax
  have hnumeral := hnumber.forall_isNumeral
  refine ⟨converts_of_lexical (lexical_of_forall ?_), readsAs_number hnumber, ?_⟩
  · intro c hc
    simp [isStructural, hnumeral c hc]
  · refine ⟨_, List.getLast?_eq_some_getLast hnumber.ne_nil, ?_⟩
    have hlast := hnumeral _ (List.getLast_mem hnumber.ne_nil)
    constructor <;> intro heq <;> rw [heq] at hlast <;> cases hlast

theorem exists_requoted_escape {c : Char} (hc : Writable c) :
    ∃ front, (∀ s t, Requoted s t → Requoted (escape c ++ s) (front ++ t)) ∧
      ∀ read text, stringRest? read (front ++ text) = stringRest? (c :: read) text := by
  unfold escape
  split
  · next hslash =>
    subst hslash
    exact ⟨[backslash, backslash], fun s t h ↦ .escaped (by decide) h, fun read text ↦ stringRest?_escaped rfl read⟩
  split
  · next hquote =>
    subst hquote
    exact ⟨[singleQuote], fun s t h ↦ .single h, stringRest?_plain (by decide) (by decide) (by decide)⟩
  split
  · next hfeed =>
    subst hfeed
    exact ⟨[backslash, 'n'], fun s t h ↦ .escaped (by decide) h, fun read text ↦ stringRest?_escaped rfl read⟩
  split
  · next htab =>
    subst htab
    exact ⟨[backslash, 't'], fun s t h ↦ .escaped (by decide) h, fun read text ↦ stringRest?_escaped rfl read⟩
  · next hslash hsingle hfeed htab =>
    -- JSON takes control characters in strings only escaped, and the two that may occur here have been.
    have hcontrol : 0x20 ≤ c.toNat := by
      rcases hc with hc | hc | hc
      · exact hc
      · exact absurd hc hfeed
      · exact absurd hc htab
    by_cases hdouble : c = doubleQuote
    · subst hdouble
      exact ⟨[backslash, doubleQuote], fun s t h ↦ .double h, fun read text ↦ stringRest?_escaped rfl read⟩
    · exact ⟨[c], fun s t h ↦ .plain hsingle hdouble hslash h, stringRest?_plain hdouble hslash hcontrol⟩

theorem exists_requoted_written (hs : ∀ c ∈ s, Writable c) : ∃ t, Requoted (s.flatMap escape) t ∧
    ∀ read rest, stringRest? read (t ++ doubleQuote :: rest) = some (read.reverse ++ s, rest) := by
  induction s with
  | nil => exact ⟨[], .nil, fun read rest ↦ by rw [List.append_nil]; exact stringRest?_quote read rest⟩
  | cons c s ih =>
    obtain ⟨hc, hs⟩ := List.forall_mem_cons.mp hs
    obtain ⟨t, ht, hread⟩ := ih hs
    obtain ⟨front, hfront, hfrontRead⟩ := exists_requoted_escape hc
    refine ⟨front ++ t, hfront _ _ ht, fun read rest ↦ ?_⟩
    rw [List.append_assoc, hfrontRead, hread, List.reverse_cons, List.append_assoc, List.singleton_append]

theorem exists_denotes_string (hs : ∀ c ∈ s, Writable c) :
    ∃ json, Denotes level (quotedBy singleQuote (s.flatMap escape)) (Json.text s) json := by
  obtain ⟨t, ht, hread⟩ := exists_requoted_written hs
  refine ⟨quotedBy doubleQuote t, converts_single ht, fun rest _ ↦ ?_, ?_⟩
  · rw [quotedBy, List.cons_append, List.append_assoc, value?_string, List.singleton_append, hread]
    rfl
  · exact endsItem_concat (doubleQuote :: t) (by decide)

mutual

theorem exists_denotes : (level : Nat) → (v : Constant) → v.depth ≤ level → ∃ json, Denotes level v.written v.value json
  | level, .none, _ => ⟨_, denotes_none level⟩
  | level, .bool true, _ => ⟨_, denotes_true level⟩
  | level, .bool false, _ => ⟨_, denotes_false level⟩
  | _, .int _ hmin hmax, _ => ⟨_, denotes_int hmin hmax⟩
  | _, .string _ hs, _ => exists_denotes_string hs
  | 0, .list items, h => absurd h (Nat.not_succ_le_zero _)
  | level + 1, .list items, h => by
    obtain ⟨jsons, hconverts, hreads, -⟩ := exists_denotes_items level items (Nat.le_of_succ_le_succ h)
    have hends : EndsItem ('[' :: (join ", ".toList jsons ++ [']'])) :=
      endsItem_concat ('[' :: join ", ".toList jsons) (by decide)
    exact ⟨_, converts_list hconverts, readsAs_array hreads, hends⟩

theorem exists_denotes_items : (level : Nat) → (items : List Constant) → Constant.depthOfItems items ≤ level →
    ∃ jsons, List.Forall₂ Converts (Constant.writtenItems items) jsons ∧
      List.Forall₂ (ReadsAs level) jsons (Constant.values items) ∧ ∀ json ∈ jsons, EndsItem json
  | _, [], _ => ⟨[], .nil, .nil, List.forall_mem_nil _⟩
  | level, v :: items, h => by
    obtain ⟨json, hfirst⟩ := exists_denotes level v (Nat.max_le.mp h).1
    obtain ⟨jsons, hconverts, hreads, hends⟩ := exists_denotes_items level items (Nat.max_le.mp h).2
    exact ⟨json :: jsons, .cons hfirst.converts hconverts, .cons hfirst.readsAs hreads,
      List.forall_mem_cons.mpr ⟨hfirst.ends, hends⟩⟩

end

theorem values_eq_map (items : List Constant) : Constant.values items = items.map Constant.value := by
  induction items with
  | nil => rfl
  | cons v items ih => exact congrArg (v.value :: ·) ih

theorem depthOfItems_le_iff {items : List Constant} :
    Constant.depthOfItems items ≤ level ↔ ∀ v ∈ items, v.depth ≤ level := by
  induction items with
  | nil => simp [Constant.depthOfItems]
  | cons v items ih => rw [Constant.depthOfItems, Nat.max_le, ih, List.forall_mem_cons]

theorem content?_append_escape (c : Char) (text : List Char) :
    content? (escape c ++ text) = (content? text).map (c :: ·) := by
  unfold escape
  split
  · next hslash =>
    subst hslash
    rfl
  split
  · next hquote =>
    subst hquote
    rfl
  split
  · next hfeed =>
    subst hfeed
    rfl
  split
  · next htab =>
    subst htab
    rfl
  · next hslash _ _ _ => exact content?_plain hslash text

theorem content?_flatMap_escape (s : List Char) : content? (s.flatMap escape) = some s := by
  induction s with
  | nil => rfl
  | cons c s ih => rw [List.flatMap_cons, content?_append_escape, ih, Option.map_some]

theorem read_int {n : Int} (hmin : -2 ^ 63 ≤ n) (hmax : n < 2 ^ 64) (dialect : Dialect) :
    read dialect (Number.text (.int n)) = Json.int n :=
  read_of_parse? dialect (parse?_of_readsAs (denotes_int hmin hmax).readsAs) (trim_number (isNumber_text hmin hmax))

theorem dropCommas_of_endsItem (h : EndsItem json) : dropCommas json = json := by
  obtain ⟨c, hlast, hcomma, hspace⟩ := h
  obtain ⟨front, rfl⟩ := List.getLast?_eq_some_iff.mp hlast
  rw [dropCommas, List.reverse_append, List.reverse_singleton, List.singleton_append,
    List.dropWhile_cons_of_neg (by simp [hcomma, hspace]), List.reverse_cons, List.reverse_reverse]

theorem dropCommas_concat_comma (json : List Char) : dropCommas (json ++ [',']) = dropCommas json := by
  rw [dropCommas, List.reverse_append, List.reverse_singleton, List.singleton_append,
    List.dropWhile_cons_of_pos (by decide), dropCommas]

theorem EndsItem.append (h : EndsItem json) (front : List Char) : EndsItem (front ++ json) := by
  obtain ⟨c, hlast, hc⟩ := h
  refine ⟨c, ?_, hc⟩
  rw [List.getLast?_append, Option.mem_def.mp hlast]
  rfl

theorem endsItem_join (hne : jsons ≠ []) (h : ∀ json ∈ jsons, EndsItem json) : EndsItem (join ", ".toList jsons) := by
  induction jsons with
  | nil => exact absurd rfl hne
  | cons json jsons ih =>
    obtain ⟨hfirst, hothers⟩ := List.forall_mem_cons.mp h
    cases jsons with
    | nil =>
      rw [join, List.intercalate_singleton]
      exact hfirst
    | cons next jsons =>
      have hjoin := (ih (List.cons_ne_nil _ _) hothers).append [',', ' ']
      rw [join_cons_cons]
      exact hjoin.append json

theorem read_tuple {inner : List Char} (hcomma : ',' ∈ inner)
    (hinner : dropCommas (toJson inner) = join ", ".toList jsons) (hreads : List.Forall₂ (ReadsAs 126) jsons found) :
    read .python ('(' :: (inner ++ [')'])) = .array found := by
  apply read_parenthesized hcomma
  rw [hinner]
  exact parse?_of_readsAs (readsAs_array hreads)

theorem read_writtenTuple {items : List Constant} (hne : items ≠ []) (hdepth : Constant.depthOfItems items ≤ 126) :
    read .python (Constant.writtenTuple items) = .array (Constant.values items) := by
  obtain ⟨jsons, hconverts, hreads, hends⟩ := exists_denotes_items 126 items hdepth
  match items, hne with
  | [v], _ =>
    obtain ⟨json, _, hfirst, hnil, rfl⟩ := List.forall₂_cons_left_iff.mp hconverts
    cases hnil
    have hcloser : v.written ++ [',', ')'] = (v.written ++ [',']) ++ [')'] :=
      (List.append_assoc v.written [','] [')']).symm
    rw [Constant.writtenTuple, hcloser]
    refine read_tuple (by simp) ?_ hreads
    rw [(hfirst.concat (by decide)).toJson_eq, dropCommas_concat_comma,
      dropCommas_of_endsItem (hends json List.mem_cons_self), join, List.intercalate_singleton]
  | v :: w :: items, _ =>
    have hjsons : jsons ≠ [] := by
      rintro rfl
      cases hconverts
    refine read_tuple ?_ ?_ hreads
    · rw [Constant.writtenItems, Constant.writtenItems, join_cons_cons]
      exact List.mem_append_right _ List.mem_cons_self
    · rw [(converts_join hconverts).toJson_eq, dropCommas_of_endsItem (endsItem_join hjsons hends)]

theorem read_written_value {v : Constant} (hdepth : v.depth ≤ 127) : read .python v.written = v.value := by
  match v with
  | .none => rfl
  | .bool true => rfl
  | .bool false => rfl
  | .int _ hmin hmax => exact read_int hmin hmax .python
  | .string s _ => exact read_quoted (by decide) (content?_flatMap_escape s)
  | .list items =>
    obtain ⟨jsons, hconverts, hreads, -⟩ := exists_denotes_items 126 items (Nat.le_of_succ_le_succ hdepth)
    exact read_list hconverts hreads

/-- What Python writes for a value is read as that value, and a tuple of such values as the list of them; lists and
tuples are nested 127 deep at most. -/
theorem read_written :
    (∀ v : Constant, v.depth ≤ 127 → read .python v.written = v.value) ∧
      ∀ items : List Constant, items ≠ [] → (∀ v ∈ items, v.depth + 1 ≤ 127) →
        read .python (Constant.writtenTuple items) = .array (items.map Constant.value) := by
  refine ⟨fun v hdepth ↦ read_written_value hdepth, fun items hne hdepth ↦ ?_⟩
  have hdepth : Constant.depthOfItems items ≤ 126 :=
    depthOfItems_le_iff.mpr fun v hv ↦ Nat.le_of_succ_le_succ (hdepth v hv)
  rw [read_writtenTuple hne hdepth, values_eq_map]

theorem writable_of_all (h : s.all (fun c ↦ Writable c) = true) : ∀ c ∈ s, Writable c :=
  fun c hc ↦ of_decide_eq_true (List.all_eq_true.mp h c hc)

theorem read_written_quotes :
    (∃ v : Constant, v.depth = 2 ∧ v.written = "['It\\'s \"[None, ]\"\\n\\\\', -7, [None, True]]".toList ∧
      read .python v.written =
        .array [Json.text "It's \"[None, ]\"\n\\".toList, Json.int (-7), .array [.null, .bool true]]) ∧
      read .python "('False',)".toList = .array [.string "False"] := by
  constructor
  · exact ⟨.list [.string "It's \"[None, ]\"\n\\".toList (writable_of_all (by decide)),
        .int (-7) (by decide) (by decide), .list [.none, .bool true]],
      by decide, by decide +kernel, read_written.1 _ (by decide)⟩
  · exact read_written.2 [.string "False".toList (writable_of_all (by decide))] (by decide) (by decide)

end AnswerKey.Answer.Python
